/-
# Bindery.Catalog.Document -- the JSON documents of the two catalogs.

The function catalog is a record with one field, a list of function entries; function and wrapping
records refuse unknown fields. The parameter catalog and its parameter sets ignore unknown fields.
A document is read as a whole before any rule of the catalogs is checked, so a text that is
malformed anywhere is refused as malformed.
-/
import Bindery.Catalog.Functions
import Bindery.Json.Shape

namespace Bindery

open Json (Shape)
open Json.Shape (text natural listOf pairOf textMap choice fields required defaulted optional)

/-! ## Functions -/

/-- A backend by its name. -/
def Backend.shape : Shape Backend :=
  choice Backend.ofName?

/-- The names of the two pointee rules. -/
def PointeeRule.ofName? : String → Option PointeeRule
  | "implicit" => some .identical
  | "explicit" => some .asserted
  | _ => none

/-- A wrapping record. -/
def WrappingEntry.shape : Shape WrappingEntry := fun v => do
  let fs ← fields
    ["name_postfix", "arg_mapping_from", "uninit_mutate_init_return", "return_as_result",
    "map_types", "description"]
    .refused v
  return {
    suffix := ← defaulted fs "name_postfix" text ""
    sources := ← defaulted fs "arg_mapping_from" (fun v => (textMap v).map NameMap.ofList) .empty
    outputs := ← defaulted fs "uninit_mutate_init_return" (listOf text) []
    conventionTag := ← optional fs "return_as_result" text
    pointees := ← defaulted fs "map_types" (choice PointeeRule.ofName?) .identical
    description := ← optional fs "description" text }

/-- A function record. -/
def FunctionEntry.shape : Shape FunctionEntry := fun v => do
  let fs ← fields ["name", "args", "return", "implementations", "wrapping", "wrappings"] .refused v
  return {
    name := ← required fs "name" text
    arguments := ← required fs "args" (listOf (pairOf text))
    returns := ← optional fs "return" text
    backends := ← optional fs "implementations" (listOf Backend.shape)
    wrapping := ← optional fs "wrapping" WrappingEntry.shape
    wrappings := ← optional fs "wrappings" (listOf WrappingEntry.shape) }

/-- The entries of a function catalog. -/
def FunctionCatalog.entriesShape : Shape (List FunctionEntry) := fun v => do
  let fs ← fields ["api"] .ignored v
  required fs "api" (listOf FunctionEntry.shape)

/-- **`parse s`** -- the function catalog that a text holds. -/
def FunctionCatalog.parse (s : String) : Except CatalogError FunctionCatalog :=
  match Json.parse s >>= FunctionCatalog.entriesShape with
  | some entries => FunctionCatalog.ofEntries entries
  | none => .error .malformed

/-! ## Parameters -/

/-- A parameter set record.  Levels are 32-bit and byte lengths 64-bit numbers. -/
def ParameterSet.shape : Shape ParameterSet := fun v => do
  let fs ← fields ["security_level", "publickey_bytes", "secretkey_bytes", "signature_bytes",
    "implementations"]
    .ignored v
  return {
    level := ← required fs "security_level" (natural (UInt32.size - 1))
    publicKeyBytes := ← required fs "publickey_bytes" (natural (UInt64.size - 1))
    secretKeyBytes := ← required fs "secretkey_bytes" (natural (UInt64.size - 1))
    signatureBytes := ← required fs "signature_bytes" (natural (UInt64.size - 1))
    backends := ← required fs "implementations" (listOf Backend.shape) }

/-- A parameter catalog record. -/
def ParameterCatalog.shape : Shape ParameterCatalog := fun v => do
  let fs ← fields ["scheme", "namespace", "parameter_sets"] .ignored v
  return {
    scheme := ← defaulted fs "scheme" text "dilithium"
    library := ← defaulted fs "namespace" text "PQCLEAN"
    sets := ← required fs "parameter_sets" (listOf ParameterSet.shape) }

/-- **`parse s`** -- the parameter catalog that a text holds. -/
def ParameterCatalog.parse (s : String) : Except CatalogError ParameterCatalog :=
  match Json.parse s >>= ParameterCatalog.shape with
  | some catalog => catalog.check
  | none => .error .malformed

end Bindery
