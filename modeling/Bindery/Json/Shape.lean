/-
# Bindery.Json.Shape -- reading JSON values into typed data.

A shape is a function that reads a value or refuses it.  Records are read by their field names: an
object gives the fields by name, each known name at most once, and an array gives them by position,
in the order of declaration, without the fields at its end that have a default.  A strict record
refuses names that it does not know, a lenient one ignores their values.  Optional fields may be
absent or null; a field with a default may be absent, but not null.
-/
import Bindery.Json.Value
import Bindery.Text.Digits

namespace Bindery.Json

/-- A reader of values: nothing where the value has another shape. -/
abbrev Shape (α : Type) := Value → Option α

namespace Shape

/-! ## Plain shapes -/

/-- The text that pieces denote. -/
def denoteText (pieces : List Piece) : Option String :=
  (denote pieces).map String.ofList

/-- A string. -/
def text : Shape String
  | .string pieces => denoteText pieces
  | _ => none

/-- A natural number of at most `limit`, written as digits alone. -/
def natural (limit : Nat) : Shape Nat
  | .number digits => (Text.number? 10 digits).filter (· ≤ limit)
  | _ => none

/-- An array whose items all have one shape. -/
def listOf {α : Type} (item : Shape α) : Shape (List α)
  | .array items => items.mapM item
  | _ => none

/-- An array of two items of one shape. -/
def pairOf {α : Type} (item : Shape α) : Shape (α × α)
  | .array [a, b] => do return (← item a, ← item b)
  | _ => none

/-- An object as a list of texts under texts, in order. -/
def textMap : Shape (List (String × String))
  | .object members => members.mapM fun member => do return (← denoteText member.1, ← text member.2)
  | _ => none

/-- A choice between names, written as the name or as an object whose only key is the name, with
null under it. -/
def choice {α : Type} (ofName? : String → Option α) : Shape α
  | .string pieces => do ofName? (← denoteText pieces)
  | .object [(pieces, .null)] => do ofName? (← denoteText pieces)
  | _ => none

/-! ## Records -/

/-- What a record does with a name that it does not know. -/
inductive Unknown where
  | refused
  | ignored
deriving DecidableEq

/-- The fields of a record, by name. -/
abbrev Fields := List (String × Value)

/-- Collects the members of an object; `found` holds the fields before them. -/
def collect (names : List String) (unknown : Unknown) (found : Fields) :
    List (List Piece × Value) → Option Fields
  | [] => some found
  | (pieces, value) :: rest => do
    let name ← denoteText pieces
    if name ∈ names then
      if (found.lookup name).isSome then none
      else collect names unknown ((name, value) :: found) rest
    else if unknown = .refused then none
    else collect names unknown found rest

/-- **`fields names unknown v`** -- the fields that an object gives by name or an array by position.
-/
def fields (names : List String) (unknown : Unknown) : Shape Fields
  | .object members => collect names unknown [] members
  | .array items => if items.length ≤ names.length then some (names.zip items) else none
  | _ => none

/-- A field that must be there. -/
def required {α : Type} (fs : Fields) (name : String) (shape : Shape α) : Option α := do
  shape (← fs.lookup name)

/-- A field with a default. -/
def defaulted {α : Type} (fs : Fields) (name : String) (shape : Shape α) (default : α) : Option α :=
  match fs.lookup name with
  | some value => shape value
  | none => some default

/-- A field that may be absent or null. -/
def optional {α : Type} (fs : Fields) (name : String) (shape : Shape α) : Option (Option α) :=
  match fs.lookup name with
  | none | some .null => some none
  | some value => (shape value).map some

end Shape

end Bindery.Json
