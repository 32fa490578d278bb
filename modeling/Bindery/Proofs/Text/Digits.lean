/-
# Bindery.Proofs.Text.Digits -- what digits are worth.

A number is written digit by digit from the front and worth what its digits add up to, so all facts
here go by the last digit: it adds its value to the radix times what stands before it.  Two things
follow.  What is written in a radix is read back in it.  And digits that are read in a larger radix
are worth more, unless all but the last are zeros.
-/
import Bindery.Text.Digits
import Mathlib.Data.List.Induction
import Mathlib.Tactic.IntervalCases

namespace Bindery.Text

/-! ## The last digit -/

/-- The last digit adds its value to the radix times what stands before it. -/
theorem valueOf_concat (radix : Nat) (s : List Char) (c : Char) :
    valueOf radix (s ++ [c]) = radix * valueOf radix s + (digitValue? c).getD 0 := by
  simp [valueOf, List.foldl_append]

/-- A digit of a radix has a value below it. -/
theorem isDigitOf_iff {radix : Nat} {c : Char} :
    isDigitOf radix c = true ↔ ∃ value, digitValue? c = some value ∧ value < radix := by
  simp [isDigitOf, Option.any_eq_true]

/-- The digits of all radices. -/
def digitChars : List Char :=
  "0123456789abcdefABCDEF".toList

/-- A character between two others is the one of its number. -/
theorem mem_of_between {low high c : Char} {s : List Char} (hlow : low ≤ c) (hhigh : c ≤ high)
    (hall : ∀ n ≤ high.toNat, low.toNat ≤ n → Char.ofNat n ∈ s) : c ∈ s := by
  rw [← Char.ofNat_toNat c]
  exact hall c.toNat hhigh hlow

theorem mem_digitChars {c : Char} {value : Nat} (h : digitValue? c = some value) :
    c ∈ digitChars := by
  unfold digitValue? at h
  split at h
  · rename_i hrange
    exact mem_of_between hrange.1 hrange.2 (by decide)
  · split at h
    · rename_i hrange
      exact mem_of_between hrange.1 hrange.2 (by decide)
    · split at h
      · rename_i hrange
        exact mem_of_between hrange.1 hrange.2 (by decide)
      · cases h

/-! ## Written numbers -/

theorem digitValue?_digitChar {n : Nat} (h : n < 16) : digitValue? n.digitChar = some n := by
  interval_cases n <;> decide

theorem valueOf_digitChar {radix n : Nat} (h : n < 16) : valueOf radix [n.digitChar] = n := by
  simp [valueOf, digitValue?_digitChar h]

section Written

variable {radix : Nat}

/-- What is written in a radix consists of its digits. -/
theorem isDigitOf_of_mem_toDigits (hradix : 1 < radix) (hsmall : radix ≤ 16) {n : Nat} :
    ∀ c ∈ Nat.toDigits radix n, isDigitOf radix c = true := by
  have hdigit : ∀ d < radix, isDigitOf radix d.digitChar = true := by
    intro d hd
    exact isDigitOf_iff.mpr ⟨d, digitValue?_digitChar (by omega), hd⟩
  induction n using Nat.strongRecOn with
  | ind n ih =>
    intro c hc
    rw [Nat.toDigits_eq_if hradix] at hc
    split at hc
    · rename_i hlt
      rw [List.mem_singleton] at hc
      exact hc ▸ hdigit n hlt
    · rename_i hle
      rcases List.mem_append.mp hc with hc | hc
      · exact ih (n / radix) (Nat.div_lt_self (by omega) hradix) c hc
      · rw [List.mem_singleton] at hc
        exact hc ▸ hdigit _ (Nat.mod_lt n (by omega))

/-- What is written in a radix is worth the number that is written. -/
theorem valueOf_toDigits (hradix : 1 < radix) (hsmall : radix ≤ 16) (n : Nat) :
    valueOf radix (Nat.toDigits radix n) = n := by
  induction n using Nat.strongRecOn with
  | ind n ih =>
    rw [Nat.toDigits_eq_if hradix]
    split
    · exact valueOf_digitChar (by omega)
    · have hlast : n % radix < 16 := lt_of_lt_of_le (Nat.mod_lt n (by omega)) hsmall
      rw [valueOf_concat, ih (n / radix) (Nat.div_lt_self (by omega) hradix),
        digitValue?_digitChar hlast]
      exact Nat.div_add_mod n radix

/-- **What is written in a radix is read back.** -/
theorem number?_toDigits (hradix : 1 < radix) (hsmall : radix ≤ 16) (n : Nat) :
    number? radix (Nat.toDigits radix n) = some n := by
  have hall : (Nat.toDigits radix n).all (isDigitOf radix) = true :=
    List.all_eq_true.mpr (isDigitOf_of_mem_toDigits hradix hsmall)
  simp [number?, hall, Nat.toDigits_ne_nil, valueOf_toDigits hradix hsmall]

end Written

/-! ## Two radices -/

section Radices

variable {radix larger : Nat} {s : List Char}

/-- A larger radix has all digits of a smaller one. -/
theorem isDigitOf_mono (h : radix ≤ larger) {c : Char} (hdigit : isDigitOf radix c = true) :
    isDigitOf larger c = true := by
  obtain ⟨value, hvalue, hlt⟩ := isDigitOf_iff.mp hdigit
  exact isDigitOf_iff.mpr ⟨value, hvalue, Nat.lt_of_lt_of_le hlt h⟩

/-- Digits are worth no less in a larger radix. -/
theorem valueOf_mono (h : radix ≤ larger) (s : List Char) : valueOf radix s ≤ valueOf larger s := by
  induction s using List.reverseRecOn with
  | nil => exact Nat.le_refl 0
  | append_singleton s c ih =>
    rw [valueOf_concat, valueOf_concat]
    exact Nat.add_le_add_right (Nat.mul_le_mul h ih) _

/-- Zeros are worth nothing in any radix. -/
theorem valueOf_eq_zero_of_eq_zero (hpos : 0 < radix) (h : valueOf radix s = 0) :
    valueOf larger s = 0 := by
  induction s using List.reverseRecOn with
  | nil => rfl
  | append_singleton s c ih =>
    rw [valueOf_concat, Nat.add_eq_zero_iff, Nat.mul_eq_zero] at h
    rw [valueOf_concat, ih (h.1.resolve_left hpos.ne'), h.2, Nat.mul_zero]

/-- **Digits are worth the same in a larger radix exactly where they are worth less than the
radix**, that is, where all but the last are zeros. -/
theorem valueOf_eq_iff (hpos : 0 < radix) (hless : radix < larger)
    (hdigits : ∀ c ∈ s, isDigitOf radix c = true) :
    valueOf larger s = valueOf radix s ↔ valueOf radix s < radix := by
  rcases List.eq_nil_or_concat s with rfl | ⟨front, last, rfl⟩
  · exact iff_of_true rfl hpos
  · obtain ⟨digit, hdigit, hlt⟩ := isDigitOf_iff.mp (hdigits last (by simp))
    rw [List.concat_eq_append, valueOf_concat, valueOf_concat, hdigit, Option.getD_some]
    have hfront : valueOf radix front ≤ valueOf larger front := valueOf_mono hless.le front
    constructor
    · intro hsame
      -- digits before the last one would be worth more in the larger radix
      rcases Nat.eq_zero_or_pos (valueOf radix front) with hzero | hsome
      · rw [hzero, Nat.mul_zero, Nat.zero_add]
        exact hlt
      · have hmore : radix * valueOf radix front < larger * valueOf larger front :=
          Nat.mul_lt_mul_of_lt_of_le hless hfront (Nat.lt_of_lt_of_le hsome hfront)
        omega
    · intro hsmall
      have hzero : valueOf radix front = 0 := by
        by_contra hne
        have hone : radix * 1 ≤ radix * valueOf radix front :=
          Nat.mul_le_mul_left radix (Nat.one_le_iff_ne_zero.mpr hne)
        omega
      rw [hzero, valueOf_eq_zero_of_eq_zero hpos hzero, Nat.mul_zero, Nat.mul_zero]

end Radices

end Bindery.Text
