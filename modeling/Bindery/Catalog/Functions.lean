/-
# Bindery.Catalog.Functions -- foreign functions and how they are wrapped.

A function catalog lists foreign functions in the order in which they are emitted.  An entry gives a
function's name, its arguments with their types as text, its return type as text, the backends that
have it, and its wrappings.  An entry is raw: this module checks entries one after another and turns
them into functions, so that everything after it works with parsed types, distinct names and at
least one wrapping per function.  The first entry that breaks a rule decides the error.
-/
import Bindery.Catalog.Parameters
import Bindery.Catalog.NameMap

namespace Bindery

/-! ## Wrappings -/

/-- How the pointees of an argument and of the argument whose storage it reuses must agree. -/
inductive PointeeRule where
  /-- They must be the same type. -/
  | identical
  /-- The catalog asserts that they are compatible, and the pointer is cast. -/
  | asserted
deriving Repr, DecidableEq

/-- A policy that turns a raw integer outcome into success or failure. -/
inductive ResultConvention where
  /-- Zero is success, anything else is failure. -/
  | zeroIsOk
deriving Repr, DecidableEq

/-- The catalog's tag for a convention. -/
def ResultConvention.tag : ResultConvention → String
  | .zeroIsOk => "0 is Ok"

/-- The convention of a tag. -/
def ResultConvention.ofTag? (tag : String) : Option ResultConvention :=
  if tag = ResultConvention.zeroIsOk.tag then some .zeroIsOk else none

/-- A wrapping as the catalog's text gives it: the convention is still a tag. -/
structure WrappingEntry where
  suffix : String := ""
  sources : NameMap := .empty
  outputs : List String := []
  conventionTag : Option String := none
  pointees : PointeeRule := .identical
  description : Option String := none
deriving Repr, DecidableEq

/-- One adaptation of a foreign function into a safe wrapper. -/
structure Wrapping where
  /-- Appended to the function's name to give the wrapper's name. -/
  suffix : String
  /-- For an argument that has no storage of its own, the argument whose storage it reuses. -/
  sources : NameMap
  /-- The arguments that are uninitialised buffers, in the order in which the wrapper returns them.
  -/
  outputs : List String
  convention : Option ResultConvention
  pointees : PointeeRule
  description : Option String
deriving Repr, DecidableEq

/-- Checks the convention of a wrapping of `function`. -/
def WrappingEntry.check (function : String) (e : WrappingEntry) : Except CatalogError Wrapping :=
  match e.conventionTag with
  | none => .ok ⟨e.suffix, e.sources, e.outputs, none, e.pointees, e.description⟩
  | some tag =>
    match ResultConvention.ofTag? tag with
    | some convention =>
      .ok ⟨e.suffix, e.sources, e.outputs, some convention, e.pointees, e.description⟩
    | none => .error (.unknownConvention function tag)

/-! ## Functions -/

/-- A function as the catalog's text gives it. -/
structure FunctionEntry where
  name : String
  arguments : List (String × String)
  returns : Option String := none
  backends : Option (List Backend) := none
  wrapping : Option WrappingEntry := none
  wrappings : Option (List WrappingEntry) := none
deriving Repr, DecidableEq

/-- An argument of a foreign function. -/
structure Argument where
  name : String
  type : ForeignType
deriving Repr, DecidableEq

/-- A foreign function and its wrappings. -/
structure ForeignFunction where
  name : String
  arguments : List Argument
  returns : Option ForeignType
  /-- The backends that have the function; without a list, all of them. -/
  backends : Option (List Backend)
  wrappings : List Wrapping
deriving Repr, DecidableEq

namespace ForeignFunction

/-- Whether the function has an argument of the name. -/
def declares (f : ForeignFunction) (argument : String) : Bool :=
  f.arguments.any fun a => a.name == argument

/-- Whether a backend has the function. -/
def appliesTo (f : ForeignFunction) (backend : Backend) : Bool :=
  match f.backends with
  | some list => list.contains backend
  | none => true

/-- The name of the wrapper that a wrapping of the function gives. -/
def wrapperName (f : ForeignFunction) (w : Wrapping) : String :=
  f.name ++ w.suffix

end ForeignFunction

/-! ## Checking entries -/

namespace FunctionEntry

/-- Reads the arguments of `function` from left to right; `seen` holds the names of the arguments
before them. -/
def readArguments (function : String) :
    List String → List (String × String) → Except CatalogError (List Argument)
  | _, [] => .ok []
  | seen, (name, text) :: rest =>
    if name ∈ seen then .error (.duplicateArgument function name)
    else do
      let type ← (ForeignType.parse text).mapError (.argumentType function name)
      let others ← readArguments function (name :: seen) rest
      return ⟨name, type⟩ :: others

/-- Reads a return type; a blank text stands for no return value. -/
def readReturn (function : String) : Option String → Except CatalogError (Option ForeignType)
  | none => .ok none
  | some text =>
    if (Text.trim text.toList).isEmpty then .ok none
    else ((ForeignType.parse text).map some).mapError (.returnType function)

/-- The wrappings that an entry gives.  One wrapping and a list exclude each other, and a function
that gives none has one wrapping with every default. -/
def givenWrappings (e : FunctionEntry) : Except CatalogError (List WrappingEntry) :=
  match e.wrapping, e.wrappings with
  | some _, some _ => .error (.bothWrappingForms e.name)
  | some single, none => .ok [single]
  | none, some (first :: others) => .ok (first :: others)
  | none, _ => .ok [{}]

/-- **`check e`** -- the function that an entry describes. -/
def check (e : FunctionEntry) : Except CatalogError ForeignFunction := do
  if e.name.isEmpty then
    throw .unnamedFunction
  let arguments ← readArguments e.name [] e.arguments
  let returns ← readReturn e.name e.returns
  let given ← e.givenWrappings
  let wrappings ← given.mapM (WrappingEntry.check e.name)
  return ⟨e.name, arguments, returns, e.backends, wrappings⟩

end FunctionEntry

/-! ## Catalogs -/

/-- Foreign functions in the order in which they are emitted. -/
structure FunctionCatalog where
  functions : List ForeignFunction
deriving Repr, DecidableEq

namespace FunctionCatalog

/-- Checks entries from first to last; `seen` holds the names of the functions before them. -/
def checkEntries : List String → List FunctionEntry → Except CatalogError (List ForeignFunction)
  | _, [] => .ok []
  | seen, e :: rest =>
    if e.name ∈ seen then .error (.duplicateFunction e.name)
    else do
      let function ← e.check
      let others ← checkEntries (e.name :: seen) rest
      return function :: others

/-- **`ofEntries es`** -- the catalog of the entries. -/
def ofEntries (es : List FunctionEntry) : Except CatalogError FunctionCatalog := do
  return ⟨← checkEntries [] es⟩

/-- The functions that a backend has, in catalog order. -/
def forBackend (c : FunctionCatalog) (backend : Backend) : List ForeignFunction :=
  c.functions.filter (·.appliesTo backend)

end FunctionCatalog

end Bindery
