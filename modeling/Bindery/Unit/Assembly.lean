/-
# Bindery.Unit.Assembly -- units: what one generated source holds.

The unit of a variant holds one declaration for every function that its backend has and one wrapper
for every wrapping of such a function, both in catalog order.  All wrappings of a function share its
declaration, and no two wrappers share a name.  A draft takes up one pair of a function and a
wrapping after another; it stops at the first pair that cannot be taken up.
-/
import Bindery.Unit.SelfTest
import Bindery.Wrapper.Body

namespace Bindery

/-! ## Options -/

/-- What a run generates. -/
structure Options where
  /-- The backends for which nothing is generated. -/
  skip : List Backend := []
  /-- The import lines of every unit. -/
  uses : List String := ["use super::*;"]
  selfTest : Bool := true
  /-- The message that the self-test signs. -/
  message : String := SelfTest.defaultMessage
deriving Repr, DecidableEq

/-! ## Wrappers -/

/-- A wrapper: its signature and its statements. -/
structure Wrapper where
  signature : Signature
  body : List Statement
deriving Repr, DecidableEq

/-- Whether a statement declares a buffer. -/
def Statement.isAllocation : Statement → Bool
  | .allocate _ _ => true
  | _ => false

/-- Whether the wrapper declares buffers. -/
def Wrapper.allocates (w : Wrapper) : Bool :=
  w.body.any Statement.isAllocation

/-- The raw declaration and the wrapper that a wrapping of a function gives on its own. -/
def Wrapping.derive (stem : String) (f : ForeignFunction) (w : Wrapping) :
    Except WrappingFault (Declaration × Wrapper) := do
  let table ← w.table f
  let declaration := table.declaration stem f
  let signature ← table.signature f w
  return (declaration, ⟨signature, table.body declaration.symbol signature.returns⟩)

/-! ## Drafts -/

/-- The declarations and wrappers of the pairs taken up so far. -/
structure Draft where
  declarations : List Declaration
  wrappers : List Wrapper
deriving Repr, DecidableEq

namespace Draft

/-- The draft without pairs. -/
def empty : Draft := ⟨[], []⟩

/-- Takes up a declaration: a symbol that is declared already must be declared alike. -/
def declare (draft : Draft) (d : Declaration) : Option (List Declaration) :=
  match draft.declarations.find? fun other => other.symbol == d.symbol with
  | some first => if first = d then some draft.declarations else none
  | none => some (draft.declarations ++ [d])

/-- Takes up a pair of a function and one of its wrappings. -/
def add (v : Variant) (draft : Draft) (pair : ForeignFunction × Wrapping) :
    Except GenerationError Draft := do
  let (f, w) := pair
  let (declaration, wrapper) ← (w.derive v.symbolStem f).mapError (.inFunction f.name)
  let name := wrapper.signature.name
  let some declarations := draft.declare declaration
    | throw (.inFunction f.name (.declarationConflict name))
  if draft.wrappers.any fun other => other.signature.name == name then
    throw (.duplicateWrapper v.label name)
  return ⟨declarations, draft.wrappers ++ [wrapper]⟩

/-- Takes up pairs until one of them cannot be taken up. -/
def addAll (v : Variant) :
    Draft → List (ForeignFunction × Wrapping) → Draft × Option GenerationError
  | draft, [] => (draft, none)
  | draft, pair :: rest =>
    match draft.add v pair with
    | .ok next => addAll v next rest
    | .error e => (draft, some e)

end Draft

/-! ## Units -/

/-- What one generated source holds.  The name of its module, its scheme, its level and its backend
are no fields of their own: they are read off the variant. -/
structure SourceUnit where
  variant : Variant
  uses : List String
  declarations : List Declaration
  wrappers : List Wrapper
  selfTest : Option SelfTest
deriving Repr, DecidableEq

/-- The import line that buffers need. -/
def bufferImport : String := "use core::mem::MaybeUninit;"

/-- Every pair of a function and one of its wrappings, in catalog order. -/
def wrappingPairs (functions : List ForeignFunction) : List (ForeignFunction × Wrapping) :=
  functions.flatMap fun f => f.wrappings.map fun w => (f, w)

namespace FunctionCatalog

/-- The draft of a variant's unit, up to the first pair that cannot be taken up. -/
def draft (c : FunctionCatalog) (v : Variant) : Draft × Option GenerationError :=
  Draft.empty.addAll v (wrappingPairs (c.forBackend v.backend))

/-- The unit of a finished draft. -/
def finish (v : Variant) (o : Options) (draft : Draft) : SourceUnit where
  variant := v
  uses :=
    if draft.wrappers.any Wrapper.allocates && !o.uses.contains bufferImport then o.uses ++
      [bufferImport] else o.uses
  declarations := draft.declarations
  wrappers := draft.wrappers
  selfTest := if o.selfTest then SelfTest.plan? v draft.declarations o.message else none

/-- **`assemble c o v`** -- the unit of a variant. -/
def assemble (c : FunctionCatalog) (o : Options) (v : Variant) :
    Except GenerationError SourceUnit :=
  match c.draft v with
  | (_, some e) => .error e
  | (draft, none) => .ok (finish v o draft)

/-- Derives every pair of a list on its own, and keeps nothing of it. -/
def checkPairs : List (ForeignFunction × Wrapping) → Except GenerationError Unit
  | [] => .ok ()
  | (f, w) :: rest =>
    match w.derive "" f with
    | .ok _ => checkPairs rest
    | .error e => .error (.inFunction f.name e)

/-- **`validate c`** -- every wrapping of every function can be derived, whatever the variant. -/
def validate (c : FunctionCatalog) : Except GenerationError Unit :=
  checkPairs (wrappingPairs c.functions)

end FunctionCatalog

/-- The variants for which units are generated, in catalog order. -/
def ParameterCatalog.selected (p : ParameterCatalog) (o : Options) : List Variant :=
  p.variants.filter fun v => !o.skip.contains v.backend

/-- **`assembleAll c p o`** -- the units of all selected variants.  The first variant that fails
decides the error. -/
def FunctionCatalog.assembleAll (c : FunctionCatalog) (p : ParameterCatalog) (o : Options) :
    Except GenerationError (List SourceUnit) := do
  c.validate
  (p.selected o).mapM (c.assemble o)

end Bindery
