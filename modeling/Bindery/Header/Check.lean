/-
# Bindery.Header.Check -- comparing a variant's constants with its reference header.

The header of a variant defines the byte lengths that the generated unit declares.  A value may
stand in parentheses and carry suffix letters; what is left is a number in decimal or, after `0x`,
in hexadecimal, of at most 64 bits.
-/
import Bindery.Header.Definitions
import Bindery.Text.Digits
import Bindery.Unit.Constants

namespace Bindery

namespace Header

/-! ## Integers -/

/-- The largest value that fits into 64 bits. -/
def maxValue : Nat := UInt64.size - 1

/-- The number that digits denote, if it fits.  A plus sign may stand before them. -/
def number? (radix : Nat) (s : List Char) : Option Nat :=
  let digits := if s.head? = some '+' then s.tail else s
  (Text.number? radix digits).filter (· ≤ maxValue)

/-- What a pair of parentheses encloses, without its outer blanks. -/
def enclosed? : List Char → Option (List Char)
  | '(' :: rest => if rest.getLast? = some ')' then some (Text.trim rest.dropLast) else none
  | _ => none

/-- Trimming does not lengthen a text. -/
theorem length_trim_le (s : List Char) : (Text.trim s).length ≤ s.length := by
  have h₁ : (Text.trimStart s).length ≤ s.length := (List.dropWhile_suffix _).length_le
  have h₂ : (Text.trim s).length ≤ (Text.trimStart s).length := by
    simpa [Text.trim, Text.trimEnd] using
      (List.dropWhile_suffix (l := (Text.trimStart s).reverse) Text.isBlank).length_le
  omega

/-- What is enclosed is shorter. -/
theorem length_of_enclosed? {s inner : List Char} (h : enclosed? s = some inner) :
    inner.length < s.length := by
  unfold enclosed? at h
  split at h
  · next rest =>
    split at h
    · cases h
      have := length_trim_le rest.dropLast
      simp only [List.length_dropLast] at this
      simp only [List.length_cons]
      omega
    · cases h
  · cases h

/-- The text inside all parentheses that enclose it. -/
def stripParentheses (s : List Char) : List Char :=
  match _h : enclosed? s with
  | some inner => stripParentheses inner
  | none => s
termination_by s.length
decreasing_by exact length_of_enclosed? (by assumption)

/-- A letter of an integer suffix. -/
def isSuffixLetter (c : Char) : Bool :=
  c == 'u' || c == 'U' || c == 'l' || c == 'L'

/-- The text without its trailing suffix letters. -/
def stripSuffix (s : List Char) : List Char :=
  (s.reverse.dropWhile isSuffixLetter).reverse

/-- **`integer? value`** -- the number that a macro's value denotes. -/
def integer? (value : String) : Option Nat :=
  match stripSuffix (stripParentheses (Text.trim value.toList)) with
  | '0' :: 'x' :: digits => number? 16 digits
  | '0' :: 'X' :: digits => number? 16 digits
  | digits => number? 10 digits

end Header

/-! ## Checks -/

/-- How a header disagrees with a constant of a variant. -/
inductive HeaderFault where
  /-- The header does not define the constant. -/
  | missing (unit name : String)
  /-- The header's value is no integer. -/
  | notInteger (unit name value : String)
  /-- The header's value differs. -/
  | differs (unit name : String) (generated reference : Nat)
deriving Repr, DecidableEq

/-- The text of a disagreement. -/
def HeaderFault.message : HeaderFault → String
  | .missing unit name => unit ++ ": constant '" ++ name ++ "' not found in reference header"
  | .notInteger unit name value =>
    unit ++ ": constant '" ++ name ++ "' has non-integer value '" ++ value ++
      "' in reference header"
  | .differs unit name generated reference =>
    unit ++ ": constant '" ++ name ++ "' is " ++ generated.repr ++ " but reference header says " ++
      reference.repr

/-- Compares one constant with the definitions of a header. -/
def Constant.check (c : Constant) (unit : String) (definitions : NameMap) :
    Except HeaderFault Unit :=
  match definitions.find? c.name with
  | none => .error (.missing unit c.name)
  | some value =>
    match Header.integer? value with
    | none => .error (.notInteger unit c.name value)
    | some reference =>
      if reference = c.value then .ok () else .error (.differs unit c.name c.value reference)

/-- **`checkHeader v header`** -- compares the constants of a variant with its header, in the order
of their declaration. -/
def Variant.checkHeader (v : Variant) (header : String) : Except HeaderFault Unit :=
  v.byteLengths.all.forM fun c => c.check v.label (Header.definitions header)

end Bindery
