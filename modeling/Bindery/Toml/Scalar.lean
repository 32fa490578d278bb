/-
# Bindery.Toml.Scalar -- the numbers and dates of a TOML text.

Numbers and dates are told apart and checked, but not kept: nothing in this library reads one.  An
integer fits into 64 bits with a sign.  A float is not too large for double precision, unless it is
negative.  A date is a day of the calendar.
-/
import Bindery.Toml.Text

namespace Bindery.Toml

/-! ## Integers -/

/-- Whether a text consists of digits, in groups that single underscores separate. -/
def inGroups (isDigit : Char → Bool) (s : List Char) : Bool :=
  (s.splitOn '_').all fun group => !group.isEmpty && group.all isDigit

/-- The digits of a text without its underscores. -/
def ungrouped (s : List Char) : List Char :=
  s.filter (· != '_')

/-- Whether a sign is a minus, and what follows it. -/
def splitSign : List Char → Bool × List Char
  | '-' :: rest => (true, rest)
  | '+' :: rest => (false, rest)
  | s => (false, s)

/-- Whether a text is a decimal number without leading zeros. -/
def isDecimal (s : List Char) : Bool :=
  inGroups Char.isDigit s && (s.head? != some '0' || s == ['0'])

/-- An integer has 64 bits and a sign: it lies below this bound, and not below the negated bound. -/
def integerBound : Nat := UInt64.size / 2

/-- Whether digits of a radix denote a number that fits. -/
def fits (radix : Nat) (digits : List Char) : Bool :=
  inGroups (Text.isDigitOf radix) digits && Text.valueOf radix (ungrouped digits) < integerBound

/-- **`isInteger s`** -- a text is an integer in decimal with an optional sign, or in hexadecimal,
octal or binary with a mark. -/
def isInteger : List Char → Bool
  | '0' :: 'x' :: digits => fits 16 digits
  | '0' :: 'o' :: digits => fits 8 digits
  | '0' :: 'b' :: digits => fits 2 digits
  | s =>
    let (negative, digits) := splitSign s
    isDecimal digits && Text.valueOf 10 (ungrouped digits) < integerBound +
      (if negative then 1 else 0)

/-! ## Floats -/

/-- The smallest number that is rounded to infinity in double precision. -/
def overflowBound : Nat := Nat.pow 2 1024 - Nat.pow 2 970

/-- Whether `digits * 10 ^ exponent` is too large for double precision. -/
def overflows (digits : List Char) (exponent : Int) : Bool :=
  let significant := digits.dropWhile (· == '0')
  let size := significant.length + exponent
  if significant.isEmpty || size < 300 then false
  else if 310 < size then true
  else overflowBound * Nat.pow 10 (-exponent).toNat ≤ Text.valueOf 10 significant * Nat.pow 10
    exponent.toNat

/-- A decimal number with a fraction or an exponent, in parts. -/
structure FloatParts where
  whole : List Char
  fraction : Option (List Char)
  exponent : Option (List Char)

/-- The parts of a text at its point and its exponent mark. -/
def FloatParts.of (s : List Char) : FloatParts :=
  let isMark := fun c : Char => c == 'e' || c == 'E'
  let mantissa := s.takeWhile (!isMark ·)
  { whole := mantissa.takeWhile (· != '.')
    fraction := (mantissa.dropWhile (· != '.')).tail?
    exponent := (s.dropWhile (!isMark ·)).tail? }

/-- Whether the parts are written correctly. -/
def FloatParts.wellFormed (p : FloatParts) : Bool :=
  isDecimal p.whole && (p.fraction.isSome || p.exponent.isSome) &&
    p.fraction.all (inGroups Char.isDigit) &&
    p.exponent.all fun e => inGroups Char.isDigit (splitSign e).2

/-- Whether the parts denote too large a number. -/
def FloatParts.overflows (p : FloatParts) : Bool :=
  let fraction := ungrouped (p.fraction.getD [])
  let (negative, digits) := splitSign (p.exponent.getD [])
  let power : Int := Text.valueOf 10 (ungrouped digits)
  Toml.overflows (ungrouped p.whole ++ fraction)
    ((if negative then -power else power) - fraction.length)

/-- **`isFloat s`** -- a text is a float when it has a fraction or an exponent, or is a name of
infinity or of no number. -/
def isFloat (s : List Char) : Bool :=
  let (negative, body) := splitSign s
  if body == "inf".toList || body == "nan".toList then true
  else
    let parts := FloatParts.of body
    parts.wellFormed && (negative || !parts.overflows)

/-! ## Dates and times -/

/-- The number of two digits. -/
def twoDigits? (a b : Char) : Option Nat :=
  if a.isDigit && b.isDigit then some (Text.valueOf 10 [a, b]) else none

/-- The number of days of a month. -/
def daysIn (year month : Nat) : Nat :=
  if month = 2 then if year % 4 = 0 ∧ (year % 100 ≠ 0 ∨ year % 400 = 0) then 29 else 28
  else if month ∈ [4, 6, 9, 11] then 30
  else 31

/-- What follows a date. -/
def date? : List Char → Option (List Char)
  | a :: b :: c :: d :: '-' :: e :: f :: '-' :: g :: h :: rest => do
    let year := 100 * (← twoDigits? a b) + (← twoDigits? c d)
    let month ← twoDigits? e f
    let day ← twoDigits? g h
    if 1 ≤ month ∧ month ≤ 12 ∧ 1 ≤ day ∧ day ≤ daysIn year month then some rest else none
  | _ => none

/-- What follows the fraction of a second, if there is one. -/
def skipFraction : List Char → List Char
  | '.' :: c :: rest => if c.isDigit then rest.dropWhile Char.isDigit else '.' :: c :: rest
  | s => s

/-- What follows a time of day.  A minute may have a leap second. -/
def time? : List Char → Option (List Char)
  | a :: b :: ':' :: c :: d :: ':' :: e :: f :: rest => do
    if (← twoDigits? a b) ≤ 23 ∧ (← twoDigits? c d) ≤ 59 ∧ (← twoDigits? e f) ≤ 60 then
      some (skipFraction rest) else none
  | _ => none

/-- Whether a text is the difference to universal time. -/
def isOffset : List Char → Bool
  | ['Z'] => true
  | ['z'] => true
  | [sign, a, b, ':', c, d] =>
    (sign == '+' || sign == '-') && (twoDigits? a b).any (· ≤ 23) && (twoDigits? c d).any (· ≤ 59)
  | _ => false

/-- Whether a text is a time of day, perhaps with the difference to universal time. -/
def isTimeWithOffset (s : List Char) : Bool :=
  (time? s).any fun rest => rest.isEmpty || isOffset rest

/-- **`isDateTime s`** -- a text is a date, a time of day, or both with a `T` between them. -/
def isDateTime (s : List Char) : Bool :=
  match date? s with
  | some [] => true
  | some (c :: rest) => (c == 'T' || c == 't') && isTimeWithOffset rest
  | none => time? s == some []

example : isDateTime "2024-02-29T23:59:60.5+01:00".toList = true := by decide +kernel

example : isInteger "-9_223_372_036_854_775_808".toList = true := by decide +kernel

example :
    isFloat "1.797693134862315708e308".toList = true ∧ isFloat "1.7976931348623159e308".toList =
    false := by
  decide +kernel

end Bindery.Toml
