/-
# Bindery.Toml.Document -- reading a TOML document.

A document is a list of lines: pairs, headers and lines without content.  The pairs after a header
belong to its table.  Arrays and inline tables are read by recursion on how deep they may still be
nested.
-/
import Bindery.Toml.Scalar
import Bindery.Toml.Table

namespace Bindery.Toml

/-! ## Values -/

/-- A character of a number, a date or a boolean. -/
def isWordChar (c : Char) : Bool :=
  c.isAlphanum || c == '+' || c == '-' || c == '.' || c == '_' || c == ':'

/-- The value that a word denotes. -/
def wordValue? (word : List Char) : Option Value :=
  if word == "true".toList then some (.boolean true)
  else if word == "false".toList then some (.boolean false)
  else if isDateTime word then some .dateTime
  else if isInteger word || isFloat word then some .number
  else none

/-- What follows a date if a time of day comes after it, separated by a space. -/
def timeAfter? : List Char → Option (List Char)
  | ' ' :: rest =>
    if isTimeWithOffset (rest.takeWhile isWordChar) then some (rest.dropWhile isWordChar) else none
  | _ => none

/-- A number, a date or a boolean. -/
def word? : Reader Value := fun s => do
  let word := s.takeWhile isWordChar
  let rest := s.dropWhile isWordChar
  let value ← wordValue? word
  if date? word = some [] then return (value, (timeAfter? rest).getD rest)
  else return (value, rest)

/-- A value that is neither an array nor a table. -/
def plainValue? : Reader Value := fun s =>
  match s with
  | '"' :: _ => (string? s).map fun found => (.string found.1, found.2)
  | '\'' :: _ => (string? s).map fun found => (.string found.1, found.2)
  | _ => word? s

/-- The items of an array, after its bracket or a comma. -/
def items (item : Reader Value) (done : List Value) (s : List Char) :
    Option (List Value × List Char) :=
  match skipFiller? false s with
  | none => none
  | some (']' :: rest) => some (done.reverse, rest)
  | some start =>
    match item start with
    | none => none
    | some (value, after) =>
      match skipFiller? false after with
      | some (',' :: rest) =>
        if rest.length < s.length then items item (value :: done) rest else none
      | some (']' :: rest) => some ((value :: done).reverse, rest)
      | _ => none
termination_by s.length

/-- A key and its value. -/
def pair? (value : Reader Value) : Reader Pair := fun s =>
  match path? s with
  | some (path, '=' :: rest) => (value (skipBlanks rest)).map fun found =>
      ((path, found.1), found.2)
  | _ => none

/-- The pairs of an inline table, after its brace or a comma. -/
def members (value : Reader Value) (done : Entries) (s : List Char) :
    Option (Entries × List Char) :=
  match pair? value s with
  | none => none
  | some ((path, found), after) =>
    match define path found .inline done with
    | none => none
    | some entries =>
      match skipBlanks after with
      | ',' :: rest => if rest.length < s.length then members value entries rest else none
      | '\x7d' :: rest => some (entries, rest)
      | _ => none
termination_by s.length

/-- **`value? depth s`** -- a value with at most `depth` arrays and inline tables inside one
another. -/
def value? : Nat → Reader Value
  | 0 => fun s => plainValue? s
  | depth + 1 => fun s =>
    match s with
    | '[' :: rest => (items (value? depth) [] rest).map fun found => (.array found.1, found.2)
    | '\x7b' :: rest =>
      match skipBlanks rest with
      | '\x7d' :: after => some (.table .inline [], after)
      | start => (members (value? depth) [] start).map fun found =>
          (.table .inline found.1, found.2)
    | _ => plainValue? s

/-! ## Lines -/

/-- A line of a document. -/
inductive Line where
  | empty
  | pair (pair : Pair)
  | header (header : Header)

/-- The path of a header, between its brackets. -/
def headerPath? (close : List Char) : Reader (List String) := fun s => do
  let (path, rest) ← path? s
  return (path, ← close.isPrefixOf? rest)

/-- What a line holds. -/
def content? : Reader Line := fun s =>
  match s with
  | [] => some (.empty, [])
  | '\n' :: _ => some (.empty, s)
  | '\r' :: _ => some (.empty, s)
  | '#' :: _ => some (.empty, s)
  | '[' :: '[' :: rest => (headerPath? [']', ']'] rest).map fun found =>
      (.header (.element found.1), found.2)
  | '[' :: rest => (headerPath? [']'] rest).map fun found => (.header (.table found.1), found.2)
  | _ => (pair? (value? (depthLimit - 1)) s).map fun found => (.pair found.1, found.2)

/-- The lines of a document. -/
def lines (done : List Line) (s : List Char) : Option (List Line) :=
  if s.isEmpty then some done.reverse
  else
    match content? (skipBlanks s) with
    | none => none
    | some (line, after) =>
      match finishLine? after with
      | some rest => if rest.length < s.length then lines (line :: done) rest else none
      | none => none
termination_by s.length

/-! ## Documents -/

/-- Adds the lines to a document; `pairs` holds, from the last to the first, the pairs since the
header. -/
def assemble (header : Header) (pairs : List Pair) (entries : Entries) : List Line → Option Entries
  | [] => header.apply pairs.reverse entries
  | .empty :: rest => assemble header pairs entries rest
  | .pair pair :: rest => assemble header (pair :: pairs) entries rest
  | .header next :: rest => do assemble next [] (← header.apply pairs.reverse entries) rest

/-- **`parse text`** -- the entries of a document.  A byte order mark may stand at its start. -/
def parse (text : String) : Option Entries := do
  let s := match text.toList with
    | '\uFEFF' :: rest => rest
    | s => s
  assemble .root [] [] (← lines [] s)

end Bindery.Toml
