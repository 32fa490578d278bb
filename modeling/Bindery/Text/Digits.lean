/-
# Bindery.Text.Digits -- numbers from digits.

A digit has a value below sixteen, and a radix takes the digits whose value is below it.
-/

namespace Bindery.Text

/-- The value of a digit; the letters from `a` to `f` stand for ten to fifteen in either case. -/
def digitValue? (c : Char) : Option Nat :=
  if '0' ≤ c ∧ c ≤ '9' then some (c.toNat - '0'.toNat)
  else if 'a' ≤ c ∧ c ≤ 'f' then some (c.toNat - 'a'.toNat + 10)
  else if 'A' ≤ c ∧ c ≤ 'F' then some (c.toNat - 'A'.toNat + 10)
  else none

/-- Whether a character is a digit of a radix. -/
def isDigitOf (radix : Nat) (c : Char) : Bool :=
  (digitValue? c).any (· < radix)

/-- **`valueOf radix s`** -- the number that digits denote. -/
def valueOf (radix : Nat) (s : List Char) : Nat :=
  s.foldl (fun n c => radix * n + (digitValue? c).getD 0) 0

/-- **`number? radix s`** -- the number that a text denotes if it consists of digits, of which there
is at least one. -/
def number? (radix : Nat) (s : List Char) : Option Nat :=
  if !s.isEmpty && s.all (isDigitOf radix) then some (valueOf radix s) else none

example : number? 16 "fF".toList = some 255 := by decide +kernel

example : number? 10 "1a".toList = none := by decide +kernel

end Bindery.Text
