/-
# Bindery.Header.Definitions -- the macro definitions of a C header.

A header is read line by line.  A line defines a name when it is a `#define` directive without a
parameter list that does not go on in the next line.  Comments end a line, and nothing is carried
from one line to the next.  The last definition of a name counts.
-/
import Bindery.Catalog.NameMap
import Bindery.Text.Blank

namespace Bindery.Header

/-! ## Lines -/

/-- The line up to its first comment opener. -/
def beforeComment : List Char → List Char
  | '/' :: '/' :: _ => []
  | '/' :: '*' :: _ => []
  | c :: rest => c :: beforeComment rest
  | [] => []

/-- A character of a macro's name. -/
def isNameChar (c : Char) : Bool :=
  c.isAlphanum || c == '_'

/-- What stands between the keyword of a `#define` directive and the end of its line, with the
blanks before it. -/
def directive? : List Char → Option (List Char)
  | '#' :: rest => Text.stripKeyword? "define".toList (Text.trimStart rest)
  | _ => none

/-- The name and the value that the rest of a directive gives.  An opening parenthesis right after
the name starts a parameter list. -/
def nameAndValue? (rest : List Char) : Option (String × String) :=
  let name := rest.takeWhile isNameChar
  let value := rest.dropWhile isNameChar
  if name.isEmpty || value.head? == some '(' then none
  else some (String.ofList name, String.ofList (Text.trim value))

/-- **`definition? l`** -- the name and the value that a line defines. -/
def definition? (l : List Char) : Option (String × String) :=
  let text := Text.trim (beforeComment l)
  match directive? text with
  | some rest => if text.getLast? = some '\\' then none else nameAndValue? (Text.trimStart rest)
  | none => none

/-! ## Headers -/

/-- **`definitions header`** -- the values of all defined names. -/
def definitions (header : String) : NameMap :=
  .ofList ((Text.lines header.toList).filterMap definition?)

example :
    definitions "#define A 1 // one\n# define\tB(x) x\n#define A 2\n" =
    ⟨[("A", "2")]⟩ := by decide +kernel

end Bindery.Header
