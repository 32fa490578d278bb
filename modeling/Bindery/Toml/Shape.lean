/-
# Bindery.Toml.Shape -- reading TOML values into typed data.

A shape is a function that reads a value or refuses it.  Records are read by their field names: a
table gives the fields by name, and its other entries are ignored; an array gives them by position.
A choice is a name, or a table with the name as its only key and nothing under it.
-/
import Bindery.Toml.Table

namespace Bindery.Toml

/-- A reader of values: nothing where the value has another shape. -/
abbrev Shape (α : Type) := Value → Option α

namespace Shape

/-! ## Plain shapes -/

/-- A string. -/
def text : Shape String
  | .string text => some text
  | _ => none

/-- A truth value. -/
def flag : Shape Bool
  | .boolean value => some value
  | _ => none

/-- The items of an array or an array of tables. -/
def itemsOf? : Value → Option (List Value)
  | .array items => some items
  | .tables elements => some (elements.map (.table .header))
  | _ => none

/-- An array whose items all have one shape. -/
def listOf {α : Type} (item : Shape α) : Shape (List α) := fun value => do
  (← itemsOf? value).mapM item

/-- Whether a value holds nothing. -/
def holdsNothing : Value → Bool
  | .array items => items.isEmpty
  | .table _ entries => entries.isEmpty
  | .tables elements => elements.isEmpty
  | _ => false

/-- A choice between names: the name alone, or a table with the name as its only key. -/
def choice {α : Type} (ofName? : String → Option α) : Shape α
  | .string name => ofName? name
  | .table _ [(name, value)] => if holdsNothing value then ofName? name else none
  | _ => none

/-! ## Records -/

/-- **`fields names v`** -- the fields that a value gives by name or by position. -/
def fields (names : List String) : Shape Entries
  | .table _ entries => some (entries.filter fun entry => names.contains entry.1)
  | .dateTime => some []
  | value => (itemsOf? value).map names.zip

/-- A field that must be there. -/
def required {α : Type} (fs : Entries) (name : String) (shape : Shape α) : Option α := do
  shape (← fs.lookup name)

/-- A field with a default. -/
def defaulted {α : Type} (fs : Entries) (name : String) (shape : Shape α) (default : α) :
    Option α :=
  match fs.lookup name with
  | some value => shape value
  | none => some default

/-- A field that may be absent. -/
def optional {α : Type} (fs : Entries) (name : String) (shape : Shape α) : Option (Option α) :=
  match fs.lookup name with
  | some value => (shape value).map some
  | none => some none

end Shape

end Bindery.Toml
