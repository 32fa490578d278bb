/-
# Bindery.Toml.Text -- the strings, keys and line ends of a TOML text.

Strings come in four kinds: with escapes or without, on one line or on several.  A string on several
lines loses a line feed right after its opening quotes, its line ends become line feeds, and up to
two quotes may stand before its closing quotes; with escapes, a backslash at the end of a line joins
it with the next text.  No control characters occur but tabs and line ends.
-/
import Bindery.Text.Digits

namespace Bindery.Toml

/-- A reader takes a part off the front of a text. -/
abbrev Reader (α : Type) := List Char → Option (α × List Char)

/-! ## Blanks and line ends -/

/-- A space or a tab. -/
def isBlank (c : Char) : Bool :=
  c == ' ' || c == '\t'

/-- A character that may stand in a comment, and in a string unless it has a meaning there. -/
def isPrintable (c : Char) : Bool :=
  c == '\t' || (0x20 ≤ c.toNat && c.toNat != 0x7F)

/-- The text without its leading spaces and tabs. -/
def skipBlanks (s : List Char) : List Char :=
  s.dropWhile isBlank

/-- What follows a line end, where the end of the text ends a line too. -/
def lineEnd? : List Char → Option (List Char)
  | [] => some []
  | '\n' :: rest => some rest
  | '\r' :: '\n' :: rest => some rest
  | _ => none

/-- **`finishLine? s`** -- what follows the line, of which nothing but blanks and a comment may be
left. -/
def finishLine? (s : List Char) : Option (List Char) :=
  match skipBlanks s with
  | '#' :: rest => lineEnd? (rest.dropWhile isPrintable)
  | rest => lineEnd? rest

/-- The text without the blanks, line ends and whole comments at its start; `comment` tells whether
it starts inside a comment. -/
def skipFiller? (comment : Bool) : List Char → Option (List Char)
  | [] => if comment then none else some []
  | '\n' :: rest => skipFiller? false rest
  | '\r' :: '\n' :: rest => skipFiller? false rest
  | c :: rest =>
    if comment then if isPrintable c then skipFiller? true rest else none
    else if isBlank c then skipFiller? false rest
    else if c == '#' then skipFiller? true rest
    else some (c :: rest)

/-! ## Escapes -/

/-- The character of a code point written with `count` hexadecimal digits. -/
def codePoint? (count : Nat) (s : List Char) : Option (Char × List Char) :=
  if (s.take count).length = count then
    match Text.number? 16 (s.take count) with
    | some code => if code.isValidChar then some (Char.ofNat code, s.drop count) else none
    | none => none
  else none

/-- The character that an escape denotes; the text starts after its backslash. -/
def escape? : Reader Char
  | 'b' :: rest => some ('\x08', rest)
  | 't' :: rest => some ('\t', rest)
  | 'n' :: rest => some ('\n', rest)
  | 'f' :: rest => some ('\x0c', rest)
  | 'r' :: rest => some ('\r', rest)
  | '"' :: rest => some ('"', rest)
  | '\\' :: rest => some ('\\', rest)
  | 'u' :: rest => codePoint? 4 rest
  | 'U' :: rest => codePoint? 8 rest
  | _ => none

/-- Whether nothing but blanks stands before the next line end. -/
def endsLine (s : List Char) : Bool :=
  match skipBlanks s with
  | '\n' :: _ => true
  | '\r' :: '\n' :: _ => true
  | _ => false

/-! ## Strings -/

/-- The text of characters that were collected from the last to the first. -/
def collected (done : List Char) : String :=
  String.ofList done.reverse

/-- A string with escapes on one line, after its opening quote. -/
def basicString (done : List Char) (s : List Char) : Option (String × List Char) :=
  match s with
  | [] => none
  | '"' :: rest => some (collected done, rest)
  | '\\' :: rest =>
    match escape? rest with
    | some (c, after) => if after.length ≤ rest.length then basicString (c :: done) after else none
    | none => none
  | c :: rest => if isPrintable c then basicString (c :: done) rest else none
termination_by s.length

/-- A string without escapes on one line, after its opening quote. -/
def literalString (done : List Char) : List Char → Option (String × List Char)
  | [] => none
  | '\'' :: rest => some (collected done, rest)
  | c :: rest => if isPrintable c then literalString (c :: done) rest else none

/-- The end of a string on several lines, after three quotes: up to two further quotes belong to the
string. -/
def closeLines (quote : Char) (done : List Char) : List Char → String × List Char
  | a :: b :: rest =>
    if a = quote ∧ b = quote then (collected (quote :: quote :: done), rest)
    else if a = quote then (collected (quote :: done), b :: rest)
    else (collected done, a :: b :: rest)
  | [a] => if a = quote then (collected (quote :: done), []) else (collected done, [a])
  | [] => (collected done, [])

/-- A string with escapes on several lines, after its opening quotes; `joining` tells whether blanks
and line ends are dropped. -/
def basicLines (joining : Bool) (done : List Char) (s : List Char) : Option (String × List Char) :=
  match s with
  | [] => none
  | '"' :: '"' :: '"' :: rest => some (closeLines '"' done rest)
  | '\n' :: rest => basicLines joining (if joining then done else '\n' :: done) rest
  | '\r' :: '\n' :: rest => basicLines joining (if joining then done else '\n' :: done) rest
  | '\\' :: rest =>
    if endsLine rest then basicLines true done rest
    else
      match escape? rest with
      | some (c, after) =>
        if after.length ≤ rest.length then basicLines false (c :: done) after else none
      | none => none
  | c :: rest =>
    if joining && isBlank c then basicLines true done rest
    else if isPrintable c then basicLines false (c :: done) rest
    else none
termination_by s.length

/-- A string without escapes on several lines, after its opening quotes. -/
def literalLines (done : List Char) : List Char → Option (String × List Char)
  | [] => none
  | '\'' :: '\'' :: '\'' :: rest => some (closeLines '\'' done rest)
  | '\n' :: rest => literalLines ('\n' :: done) rest
  | '\r' :: '\n' :: rest => literalLines ('\n' :: done) rest
  | c :: rest => if isPrintable c then literalLines (c :: done) rest else none

/-- The text without a line end at its start. -/
def skipLineEnd : List Char → List Char
  | '\n' :: rest => rest
  | '\r' :: '\n' :: rest => rest
  | s => s

/-- **`string? s`** -- a string of any kind. -/
def string? : Reader String
  | '"' :: '"' :: '"' :: rest => basicLines false [] (skipLineEnd rest)
  | '"' :: rest => basicString [] rest
  | '\'' :: '\'' :: '\'' :: rest => literalLines [] (skipLineEnd rest)
  | '\'' :: rest => literalString [] rest
  | _ => none

/-! ## Keys -/

/-- A character of a key without quotes. -/
def isKeyChar (c : Char) : Bool :=
  c.isAlphanum || c == '_' || c == '-'

/-- A single key. -/
def simpleKey? : Reader String
  | '"' :: rest => basicString [] rest
  | '\'' :: rest => literalString [] rest
  | s =>
    let name := s.takeWhile isKeyChar
    if name.isEmpty then none else some (String.ofList name, s.dropWhile isKeyChar)

/-- The keys between dots; blanks may stand around each of them. -/
def keyPath (done : List String) (s : List Char) : Option (List String × List Char) :=
  match simpleKey? (skipBlanks s) with
  | none => none
  | some (key, rest) =>
    match skipBlanks rest with
    | '.' :: after => if after.length < s.length then keyPath (key :: done) after else none
    | after => some ((key :: done).reverse, after)
termination_by s.length

/-- Nothing is nested this deep: neither the keys of a path nor arrays and tables inside one
another. -/
def depthLimit : Nat := 80

/-- **`path? s`** -- a dotted key. -/
def path? : Reader (List String) := fun s =>
  (keyPath [] s).filter fun found => found.1.length < depthLimit

example : string? "\"\"\"\na\\\n  b\"\"\"\"".toList = some ("ab\"", []) := by decide +kernel

example : path? "a . \"b c\".'d' =".toList = some (["a", "b c", "d"], ['=']) := by decide +kernel

end Bindery.Toml
