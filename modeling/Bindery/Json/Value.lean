/-
# Bindery.Json.Value -- JSON values, built from tokens.

A machine reads tokens one after another and keeps the arrays and objects that are still open on a
stack, so values may nest to any depth and the reading is one pass over the tokens.  A value keeps
the pieces of its strings and the text of its numbers: whether they denote anything is asked only
where a value is used.  Objects keep their members in order, repeated keys included.
-/
import Bindery.Json.Token

namespace Bindery.Json

/-- A JSON value. -/
inductive Value where
  | null
  | bool (value : Bool)
  | number (text : List Char)
  | string (pieces : List Piece)
  | array (items : List Value)
  | object (members : List (List Piece × Value))

/-! ## The machine -/

/-- An array or object that is still open.  What it holds so far is kept in reverse. -/
inductive Frame where
  | array (items : List Value)
  /-- An object whose next value belongs to `key`. -/
  | object (members : List (List Piece × Value)) (key : List Piece)

/-- Where the machine stands between two tokens; the frames are listed from the innermost outward.
-/
inductive State where
  /-- A value must follow. -/
  | value (frames : List Frame)
  /-- An array was opened: its first item or its end must follow. -/
  | firstItem (frames : List Frame)
  /-- An object was opened: its first key or its end must follow. -/
  | firstKey (frames : List Frame)
  /-- A comma ended a member: a key must follow. -/
  | key (members : List (List Piece × Value)) (frames : List Frame)
  /-- A key was read: a colon must follow. -/
  | colon (members : List (List Piece × Value)) (key : List Piece) (frames : List Frame)
  /-- A value is complete: a comma, an end, or the end of the text must follow. -/
  | complete (value : Value) (frames : List Frame)

namespace State

/-- What a token does where a value may start. -/
def startValue (frames : List Frame) : Token → Option State
  | .openArray => some (.firstItem frames)
  | .openObject => some (.firstKey frames)
  | .null => some (.complete .null frames)
  | .bool b => some (.complete (.bool b) frames)
  | .number text => some (.complete (.number text) frames)
  | .string pieces => some (.complete (.string pieces) frames)
  | _ => none

/-- **`step st t`** -- the state after a token, or nothing if the token may not stand there. -/
def step : State → Token → Option State
  | .value frames, token => startValue frames token
  | .firstItem frames, .closeArray => some (.complete (.array []) frames)
  | .firstItem frames, token => startValue (.array [] :: frames) token
  | .firstKey frames, .closeObject => some (.complete (.object []) frames)
  | .firstKey frames, .string name => some (.colon [] name frames)
  | .key members frames, .string name => some (.colon members name frames)
  | .colon members name frames, .colon => some (.value (.object members name :: frames))
  | .complete v (.array items :: frames), .comma => some (.value (.array (v :: items) :: frames))
  | .complete v (.array items :: frames), .closeArray =>
    some (.complete (.array (v :: items).reverse) frames)
  | .complete v (.object members name :: frames), .comma =>
    some (.key ((name, v) :: members) frames)
  | .complete v (.object members name :: frames), .closeObject =>
    some (.complete (.object ((name, v) :: members).reverse) frames)
  | _, _ => none

end State

/-- **`parse s`** -- the value that a text spells, or nothing if it spells none. -/
def parse (s : String) : Option Value := do
  match ← (← tokens s.toList).foldlM State.step (.value []) with
  | .complete v [] => some v
  | _ => none

end Bindery.Json
