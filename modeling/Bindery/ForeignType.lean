/-
# Bindery.ForeignType -- the types of foreign arguments and return values.

A catalog spells a type as text.  Only the outermost pointer is read: a type is a value type or a
raw pointer with an access, and the text of a value type or of a pointee stays opaque.  Blanks never
matter: both texts are kept with single spaces between their words, so equal types are equal as
values.  A wrapper shows a pointer argument as a reference of the same access.
-/
import Bindery.Text.Blank

namespace Bindery

/-! ## Types -/

/-- What may be done through a pointer or a reference. -/
inductive Access where
  | shared
  | exclusive
deriving Repr, DecidableEq, Inhabited

/-- A type of the foreign interface. -/
inductive ForeignType where
  /-- A type passed by value. -/
  | value (text : String)
  /-- A raw pointer. -/
  | pointer (access : Access) (pointee : String)
deriving Repr, DecidableEq, Inhabited

/-- A type of a wrapper parameter. -/
inductive ParamType where
  | value (text : String)
  | reference (access : Access) (pointee : String)
deriving Repr, DecidableEq, Inhabited

/-- Why a text is no type. -/
inductive TypeError where
  /-- There is no word. -/
  | empty
  /-- A pointer does not say its access. -/
  | accessMissing (text : String)
  /-- A pointer does not say what it points to. -/
  | pointeeMissing (text : String)
deriving Repr, DecidableEq

/-- The text of a type error. -/
def TypeError.message : TypeError → String
  | .empty => "invalid type: empty type"
  | .accessMissing text => "invalid type: '" ++ text ++ "': raw pointer needs 'const' or 'mut'"
  | .pointeeMissing text => "invalid type: '" ++ text ++ "': missing pointee type"

/-! ## Reading -/

/-- The keyword that opens a pointer of the given access. -/
def Access.keyword : Access → List Char
  | .shared => "*const".toList
  | .exclusive => "*mut".toList

namespace ForeignType

/-- The pointer of an access whose pointee is spelled by `rest`; `whole` is the text that the reader
was given. -/
def ofPointee (access : Access) (whole rest : List Char) : Except TypeError ForeignType :=
  let pointee := Text.collapse rest
  if pointee.isEmpty then .error (.pointeeMissing (String.ofList whole))
  else .ok (.pointer access (String.ofList pointee))

/-- **`parse s`** -- the type that a text spells.  A text that starts with an access keyword is a
pointer, any other text that starts with a star is refused, and the rest are value types. -/
def parse (s : String) : Except TypeError ForeignType :=
  let text := Text.trim s.toList
  if text.isEmpty then .error .empty
  else
    match Text.stripKeyword? (Access.keyword .shared) text with
    | some rest => ofPointee .shared text rest
    | none =>
      match Text.stripKeyword? (Access.keyword .exclusive) text with
      | some rest => ofPointee .exclusive text rest
      | none =>
        if text.head? = some '*' then .error (.accessMissing (String.ofList text))
        else .ok (.value (String.ofList (Text.collapse text)))

/-! ## Writing and taking apart -/

/-- **`render t`** -- the text of a type. -/
def render : ForeignType → String
  | .value text => text
  | .pointer .shared pointee => "*const " ++ pointee
  | .pointer .exclusive pointee => "*mut " ++ pointee

/-- The text of the type that a pointer points to. -/
def pointee? : ForeignType → Option String
  | .value _ => none
  | .pointer _ pointee => some pointee

/-- Whether the type is a pointer that may be written through. -/
def isExclusive : ForeignType → Bool
  | .pointer .exclusive _ => true
  | _ => false

/-- The pointer of the same access to another pointee. -/
def withPointee? (t : ForeignType) (pointee : String) : Option ForeignType :=
  match t with
  | .value _ => none
  | .pointer access _ => some (.pointer access pointee)

/-- The type that a wrapper's caller sees: a pointer becomes a reference of its access. -/
def toParam : ForeignType → ParamType
  | .value text => .value text
  | .pointer access pointee => .reference access pointee

end ForeignType

/-- **`render t`** -- the text of a parameter type. -/
def ParamType.render : ParamType → String
  | .value text => text
  | .reference .shared pointee => "&" ++ pointee
  | .reference .exclusive pointee => "&mut " ++ pointee

end Bindery
