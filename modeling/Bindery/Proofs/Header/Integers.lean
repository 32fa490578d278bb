/-
# Bindery.Proofs.Header.Integers -- the integer constants of C in a header.

An integer constant of C is a run of digits with a suffix: in decimal, after a zero in octal, and
after `0x` in hexadecimal.  In a macro it may stand in parentheses.  Parentheses, blanks and
suffixes are taken off, and decimal and hexadecimal constants are read as a compiler reads them.
The zero of an octal constant is taken for a digit, so that the constant is read in decimal; this
gives its value if that is below eight, and a larger number otherwise.
-/
import Bindery.Header.Check
import Bindery.Proofs.Checks
import Bindery.Proofs.Header.Definitions
import Bindery.Proofs.Text.Blank
import Bindery.Proofs.Text.Digits

namespace Bindery

open Text

namespace Header

/-! ## Integer constants -/

/-- How an integer constant is written. -/
inductive Base where
  | decimal
  | octal
  | hexadecimal
deriving Repr, DecidableEq

/-- The radix of the digits. -/
def Base.radix : Base → Nat
  | .decimal => 10
  | .octal => 8
  | .hexadecimal => 16

/-- **`Numeral base digits text`** -- the text is an integer constant without its suffix, and its
digits are these.  A decimal one does not start with a zero, and the zero of an octal one counts as
a digit. -/
inductive Numeral : Base → List Char → List Char → Prop
  | decimal {first : Char} {rest : List Char} :
      first ≠ '0' → (∀ c ∈ first :: rest, isDigitOf 10 c = true) →
        Numeral .decimal (first :: rest) (first :: rest)
  | octal {rest : List Char} : (∀ c ∈ rest, isDigitOf 8 c = true) →
      Numeral .octal ('0' :: rest) ('0' :: rest)
  | hexadecimal {mark : Char} {digits : List Char} :
      mark = 'x' ∨ mark = 'X' → digits ≠ [] → (∀ c ∈ digits, isDigitOf 16 c = true) →
      Numeral .hexadecimal digits ('0' :: mark :: digits)

/-- A suffix: a mark for an unsigned type, a mark for a long one, or both in either order. -/
def IsSuffix (s : List Char) : Prop :=
  ∃ unsigned ∈ ["", "u", "U"], ∃ long ∈ ["", "l", "L", "ll", "LL"], s = (unsigned ++ long).toList ∨
    s = (long ++ unsigned).toList

/-- **`IsConstant base value text`** -- the text is an integer constant, and a compiler takes it for
the value. -/
def IsConstant (base : Base) (value : Nat) (text : List Char) : Prop :=
  ∃ digits numeral suffix, Numeral base digits numeral ∧ IsSuffix suffix ∧
    text = numeral ++ suffix ∧
    value = valueOf base.radix digits

/-- A text of nothing but blanks. -/
def IsGap (s : List Char) : Prop :=
  ∀ c ∈ s, isBlank c = true

instance (s : List Char) : Decidable (IsGap s) :=
  decidable_of_iff (s.all isBlank = true) List.all_eq_true

/-- **`Enclosed core text`** -- the text is `core` in any number of parentheses, with blanks
anywhere around them. -/
inductive Enclosed (core : List Char) : List Char → Prop
  | bare (before after : List Char) : IsGap before → IsGap after →
      Enclosed core (before ++ core ++ after)
  | parentheses (before after : List Char) {inner : List Char} : IsGap before → IsGap after →
      Enclosed core inner →
      Enclosed core (before ++ ('(' :: (inner ++ [')'])) ++ after)

/-! ## Characters -/

/-- A character that neither trimming nor a parenthesis takes off. -/
def isCoreChar (c : Char) : Bool :=
  !isBlank c && c != '('

theorem isCoreChar_of_isNameChar {c : Char} (h : isNameChar c = true) : isCoreChar c = true := by
  have hparenthesis : c ≠ '(' := by
    rintro rfl
    exact absurd h (by decide)
  simp [isCoreChar, isBlank_of_isNameChar h, hparenthesis]

/-- A digit is a character of names that cannot be taken for a sign, a mark or a part of a suffix.
-/
theorem isDigitOf_apart {radix : Nat} {c : Char} (h : isDigitOf radix c = true) :
    isNameChar c = true ∧ isSuffixLetter c = false ∧ c ≠ '+' ∧ c ≠ 'x' ∧ c ≠ 'X' := by
  obtain ⟨value, hvalue, -⟩ := isDigitOf_iff.mp h
  have hall : (digitChars.all fun c => isNameChar c && !isSuffixLetter c &&
      (c != '+' && (c != 'x' && c != 'X'))) = true := by
    decide +kernel
  simpa [and_assoc] using List.all_eq_true.mp hall c (mem_digitChars hvalue)

theorem isNameChar_of_isSuffixLetter {c : Char} (h : isSuffixLetter c = true) :
    isNameChar c = true := by
  simp only [isSuffixLetter, Bool.or_eq_true, beq_iff_eq] at h
  rcases h with ((rfl | rfl) | rfl) | rfl <;> decide

/-- A suffix consists of suffix letters. -/
theorem IsSuffix.letters {s : List Char} (h : IsSuffix s) : ∀ c ∈ s, isSuffixLetter c = true := by
  have hall : ∀ unsigned ∈ ["", "u", "U"], ∀ long ∈ ["", "l", "L", "ll", "LL"],
      (((unsigned ++ long).toList ++ (long ++ unsigned).toList).all isSuffixLetter) = true := by
    decide +kernel
  obtain ⟨unsigned, hunsigned, long, hlong, hs⟩ := h
  intro c hc
  have hmem : c ∈ (unsigned ++ long).toList ++ (long ++ unsigned).toList := by
    rw [List.mem_append]
    rcases hs with rfl | rfl
    · exact Or.inl hc
    · exact Or.inr hc
  exact List.all_eq_true.mp (hall unsigned hunsigned long hlong) c hmem

section Numerals

variable {base : Base} {digits text : List Char}

theorem Numeral.isDigitOf (h : Numeral base digits text) :
    ∀ c ∈ digits, Text.isDigitOf base.radix c = true := by
  cases h with
  | decimal _ hdigits => exact hdigits
  | octal hrest =>
    rw [List.forall_mem_cons]
    exact ⟨by decide, hrest⟩
  | hexadecimal _ _ hdigits => exact hdigits

/-- A numeral ends with its digits, of which there is at least one. -/
theorem Numeral.exists_eq (h : Numeral base digits text) :
    digits ≠ [] ∧ ∃ front, text = front ++ digits := by
  cases h with
  | decimal _ _ => exact ⟨by simp, [], rfl⟩
  | octal _ => exact ⟨by simp, [], rfl⟩
  | hexadecimal _ hne _ => exact ⟨hne, ['0', _], rfl⟩

/-- A numeral consists of characters of names. -/
theorem Numeral.isNameChar (h : Numeral base digits text) :
    ∀ c ∈ text, Header.isNameChar c = true := by
  have hdigits : ∀ c ∈ digits, Header.isNameChar c = true :=
    fun c hc => (isDigitOf_apart (h.isDigitOf c hc)).1
  cases h with
  | decimal _ _ => exact hdigits
  | octal _ => exact hdigits
  | hexadecimal hmark _ _ =>
    rw [List.forall_mem_cons, List.forall_mem_cons]
    refine ⟨by decide, ?_, hdigits⟩
    rcases hmark with rfl | rfl <;> decide

end Numerals

/-! ## Parentheses -/

section Parentheses

variable {core text : List Char}

/-- What stands in a pair of parentheses is enclosed by it. -/
theorem enclosed?_parentheses (inner : List Char) :
    enclosed? ('(' :: (inner ++ [')'])) = some (trim inner) := by
  simp [enclosed?]

theorem stripParentheses_of_enclosed? {inner : List Char} (h : enclosed? text = some inner) :
    stripParentheses text = stripParentheses inner := by
  rw [stripParentheses]
  split
  · rename_i other hother
    rw [h] at hother
    cases hother
    rfl
  · rename_i hnone
    rw [h] at hnone
    cases hnone

/-- A text that does not open with a parenthesis is left as it is. -/
theorem stripParentheses_of_head? (h : text.head? ≠ some '(') : stripParentheses text = text := by
  have hnone : enclosed? text = none := by
    unfold enclosed?
    split
    · exact absurd rfl h
    · rfl
  rw [stripParentheses]
  split
  · rename_i inner hinner
    rw [hnone] at hinner
    cases hinner
  · rfl

/-- **Parentheses and blanks are taken off**, in any number, up to a text that has neither. -/
theorem Enclosed.stripParentheses (h : Enclosed core text) (hne : core ≠ [])
    (hcore : ∀ c ∈ core, isCoreChar c = true) :
    Header.stripParentheses (trim text) = core := by
  induction h with
  | bare before after hbefore hafter =>
    have hblank : ∀ c ∈ core, isBlank c = false := by
      intro c hc
      have hchar := hcore c hc
      rw [isCoreChar, Bool.and_eq_true, Bool.not_eq_true'] at hchar
      exact hchar.1
    rw [trim_frame hbefore hafter hne (fun c hc => hblank c (List.mem_of_mem_head? hc))
      (fun c hc => hblank c (List.mem_of_mem_getLast? hc))]
    -- nothing is left to take off: the text itself does not open with a parenthesis
    refine stripParentheses_of_head? fun hopens => ?_
    exact absurd (hcore '(' (List.mem_of_mem_head? hopens)) (by decide)
  | @parentheses before after inner hbefore hafter _ ih =>
    have hfirst : ∀ c ∈ ('(' :: (inner ++ [')'])).head?, isBlank c = false := by
      rintro c ⟨⟩
      decide
    have hlast : ∀ c ∈ ('(' :: (inner ++ [')'])).getLast?, isBlank c = false := by
      rw [← List.cons_append, List.getLast?_concat]
      rintro c ⟨⟩
      decide
    rw [trim_frame hbefore hafter (by simp) hfirst hlast,
      stripParentheses_of_enclosed? (enclosed?_parentheses inner), ih]

end Parentheses

/-! ## Suffixes -/

/-- Suffix letters are taken off digits. -/
theorem stripSuffix_append {digits front suffix : List Char} {radix : Nat} (hne : digits ≠ [])
    (hdigits : ∀ c ∈ digits, isDigitOf radix c = true)
    (hsuffix : ∀ c ∈ suffix, isSuffixLetter c = true) :
    stripSuffix (front ++ digits ++ suffix) = front ++ digits := by
  rcases List.eq_nil_or_concat digits with rfl | ⟨before, last, rfl⟩
  · exact absurd rfl hne
  · -- from the back, the letters of the suffix are dropped up to the last digit, which is none of
    -- them
    have hletters : ∀ c ∈ suffix.reverse, isSuffixLetter c = true :=
      fun c hc => hsuffix c (List.mem_reverse.mp hc)
    have hlast : ¬ isSuffixLetter last = true := by
      rw [(isDigitOf_apart (hdigits last (by simp))).2.1]
      decide
    rw [stripSuffix, List.reverse_append, List.dropWhile_append_of_pos hletters,
      List.concat_eq_append, ← List.append_assoc, List.reverse_append, List.reverse_singleton,
      List.singleton_append, List.dropWhile_cons_of_neg hlast, List.reverse_cons,
      List.reverse_reverse]

/-! ## Numbers -/

/-- Digits of a radix denote what they are worth, if that fits. -/
theorem number?_of_isDigitOf {radix : Nat} {digits : List Char} (hne : digits ≠ [])
    (hdigits : ∀ c ∈ digits, isDigitOf radix c = true) :
    number? radix digits = if valueOf radix digits ≤ maxValue then
        some (valueOf radix digits) else none := by
  have hsign : digits.head? ≠ some '+' := by
    intro hplus
    exact (isDigitOf_apart (hdigits '+' (List.mem_of_mem_head? hplus))).2.2.1 rfl
  have hall : digits.all (isDigitOf radix) = true := List.all_eq_true.mpr hdigits
  simp [number?, hsign, Text.number?, hne, hall, Option.filter]

section Values

variable {base : Base} {value : Nat} {core : List Char} {text : String}

/-- The radix in which a constant is read: a compiler's, but for octal constants. -/
def Base.readIn : Base → Nat
  | .decimal => 10
  | .octal => 10
  | .hexadecimal => 16

/-- Decimal digits are not taken for a hexadecimal constant. -/
theorem integer?_of_decimal {digits : List Char} (hdigits : ∀ c ∈ digits, isDigitOf 10 c = true)
    (hstrip : stripSuffix (stripParentheses (trim text.toList)) = digits) :
    integer? text = number? 10 digits := by
  rw [integer?, hstrip]
  split
  · exact absurd rfl (isDigitOf_apart (hdigits 'x' (by simp))).2.2.2.1
  · exact absurd rfl (isDigitOf_apart (hdigits 'X' (by simp))).2.2.2.2
  · rfl

/-- A numeral is read in its radix, or in decimal if it is octal. -/
theorem Numeral.integer? {digits numeral : List Char} (h : Numeral base digits numeral)
    (hstrip : stripSuffix (stripParentheses (trim text.toList)) = numeral) :
    Header.integer? text = number? base.readIn digits := by
  cases h with
  | decimal _ hdigits => exact integer?_of_decimal hdigits hstrip
  | octal hrest =>
    refine integer?_of_decimal ?_ hstrip
    rw [List.forall_mem_cons]
    exact ⟨by decide, fun c hc => isDigitOf_mono (by decide) (hrest c hc)⟩
  | hexadecimal hmark _ _ =>
    rw [Header.integer?, hstrip]
    rcases hmark with rfl | rfl <;> rfl

/-- **Suffix letters, parentheses and blanks do not change the number** that a numeral is read as.
-/
theorem Numeral.integer?_of_enclosed {digits numeral suffix : List Char}
    (h : Numeral base digits numeral)
    (hsuffix : ∀ c ∈ suffix, isSuffixLetter c = true)
    (htext : Enclosed (numeral ++ suffix) text.toList) :
    Header.integer? text = if valueOf base.readIn digits ≤ maxValue then
        some (valueOf base.readIn digits) else none := by
  obtain ⟨hne, front, hfront⟩ := h.exists_eq
  have hcore : ∀ c ∈ numeral ++ suffix, isCoreChar c = true :=
    List.forall_mem_append.mpr ⟨fun c hc => isCoreChar_of_isNameChar (h.isNameChar c hc),
      fun c hc => isCoreChar_of_isNameChar (isNameChar_of_isSuffixLetter (hsuffix c hc))⟩
  have hstrip : stripParentheses (trim text.toList) = numeral ++ suffix :=
    htext.stripParentheses (by simp [hfront, hne]) hcore
  -- parentheses and suffix are gone, so what is read is the numeral
  have hnumber : Header.integer? text = number? base.readIn digits := by
    refine h.integer? ?_
    rw [hstrip, hfront, stripSuffix_append hne h.isDigitOf hsuffix]
  have hdigits : ∀ c ∈ digits, Text.isDigitOf base.readIn c = true := by
    intro c hc
    refine isDigitOf_mono ?_ (h.isDigitOf c hc)
    cases base <;> decide
  exact hnumber.trans (number?_of_isDigitOf hne hdigits)

/-- **How a constant is read**: as a number that is its value, unless the constant is octal with a
value from eight on, where the number is larger; and it is not read where the number does not fit.
-/
theorem IsConstant.exists_integer? (h : IsConstant base value core)
    (htext : Enclosed core text.toList) :
    ∃ number, integer? text = (if number ≤ maxValue then some number else none) ∧ value ≤ number ∧
      (number = value ↔ (base = .octal → value < 8)) := by
  obtain ⟨digits, numeral, suffix, hnumeral, hsuffix, rfl, rfl⟩ := h
  refine ⟨valueOf base.readIn digits, hnumeral.integer?_of_enclosed hsuffix.letters htext, ?_, ?_⟩
  · exact valueOf_mono (by cases base <;> decide) digits
  · cases base with
    | decimal => simp [Base.readIn, Base.radix]
    | octal =>
      simpa [Base.readIn, Base.radix] using valueOf_eq_iff (by decide) (by decide)
        hnumeral.isDigitOf
    | hexadecimal => simp [Base.readIn, Base.radix]

end Values

end Header

/-! ## Checks -/

section Checks

variable {c : Constant} {unit text : String} {definitions : NameMap}

theorem Constant.check_of_none (hfind : definitions.find? c.name = some text)
    (hread : Header.integer? text = none) :
    c.check unit definitions = .error (.notInteger unit c.name text) := by
  simp [check, hfind, hread]

theorem Constant.check_of_some {reference : Nat} (hfind : definitions.find? c.name = some text)
    (hread : Header.integer? text = some reference) :
    c.check unit definitions = if reference = c.value then .ok () else
        .error (.differs unit c.name c.value reference) := by
  simp [check, hfind, hread]

/-- A definition that is accepted is read as the value of the constant. -/
theorem Constant.integer?_of_check (hcheck : c.check unit definitions = .ok ())
    (hfind : definitions.find? c.name = some text) :
    Header.integer? text = some c.value := by
  cases hread : Header.integer? text with
  | none =>
    rw [check_of_none hfind hread] at hcheck
    cases hcheck
  | some reference =>
    rw [check_of_some hfind hread] at hcheck
    split at hcheck
    · rename_i hsame
      rw [hsame]
    · cases hcheck

end Checks

/-- **Which constants are compared by the value that a compiler sees.** A constant that is too large
for 64 bits is refused, and every other one is read as its value unless it is octal with a value
from eight on.  So what an accepted header defines has the value of the generated constant, but for
these octal constants, which never have it. -/
theorem constants_compared_by_value {base : Header.Base} {value : Nat} {core : List Char}
    {text : String}
    (hconstant : Header.IsConstant base value core) (htext : Header.Enclosed core text.toList) :
    (Header.integer? text = some value ↔ value ≤ Header.maxValue ∧ (base = .octal → value < 8)) ∧
    (∀ (c : Constant) (unit : String) (definitions : NameMap),
    definitions.find? c.name = some text →
      (Header.maxValue < value → c.check unit definitions = .error (.notInteger unit c.name text)) ∧
      (value ≤ Header.maxValue → (base = .octal → value < 8) →
        c.check unit definitions = if value = c.value then .ok () else
          .error (.differs unit c.name c.value value))) ∧
    ∀ (v : Variant) (header : String) (before after : List Constant) (c : Constant),
      v.byteLengths.all = before ++ c :: after →
      Header.Defines header c.name text →
      (Header.maxValue < value →
        (∀ b ∈ before, b.check v.label (Header.definitions header) = .ok ()) →
        v.checkHeader header = .error (.notInteger v.label c.name text)) ∧
      (v.checkHeader header = .ok () → value ≤ Header.maxValue ∧
          (value = c.value ↔ (base = .octal → value < 8))) := by
  obtain ⟨number, hread, hle, hsame⟩ := hconstant.exists_integer? htext
  have hvalue : Header.integer? text = some value ↔ value ≤ Header.maxValue ∧
      (base = .octal → value < 8) := by
    rw [hread, ← hsame]
    constructor
    · intro h
      split at h
      · rename_i hfits
        cases h
        exact ⟨hfits, rfl⟩
      · cases h
    · rintro ⟨hfits, rfl⟩
      rw [if_pos hfits]
  have hlarge : Header.maxValue < value → Header.integer? text = none := by
    intro hlarge
    rw [hread, if_neg (Nat.not_le.mpr (Nat.lt_of_lt_of_le hlarge hle))]
  refine ⟨hvalue, ?_, ?_⟩
  · intro c unit definitions hfind
    exact ⟨fun h => Constant.check_of_none hfind (hlarge h),
      fun hfits hbase => Constant.check_of_some hfind (hvalue.mpr ⟨hfits, hbase⟩)⟩
  · intro v header before after c hsplit hdefines
    have hfind := hdefines.find?
    refine ⟨?_, ?_⟩
    · intro h hbefore
      rw [Variant.checkHeader, hsplit]
      exact forM_eq_error_of_split hbefore (Constant.check_of_none hfind (hlarge h))
    · intro hok
      rw [Variant.checkHeader, hsplit, forM_eq_ok_iff] at hok
      have hcheck := hok c (by simp)
      have hfound := Constant.integer?_of_check hcheck hfind
      -- the number that is read fits and is that of the constant
      rw [hread] at hfound
      split at hfound
      · rename_i hfits
        cases hfound
        rw [← hsame, eq_comm]
        exact ⟨hle.trans hfits, Iff.rfl⟩
      · cases hfound

/-! ## A sample -/

/-- The variant of the headers below. -/
def headerVariant : Variant :=
  ⟨"s", "N", ⟨2, 1, 1, 20, [.clean]⟩, .clean⟩

/-- The name under which the length of signatures is defined. -/
def signatureName : String :=
  "N_S2_CLEAN_CRYPTO_BYTES"

/-- The line that defines that name. -/
def signatureLine (text : String) : String :=
  "#define " ++ signatureName ++ " " ++ text

/-- The lines that define the lengths of keys. -/
def keyLines : List String :=
  ["#define N_S2_CLEAN_CRYPTO_PUBLICKEYBYTES 1", "#define N_S2_CLEAN_CRYPTO_SECRETKEYBYTES 1"]

/-- A header that defines the length of signatures by some text. -/
def headerWith (text : String) : String :=
  String.join ((keyLines ++ [signatureLine text]).map (· ++ "\n"))

/-- The theorem at a hexadecimal constant in two pairs of parentheses, in a header that is accepted.
-/
theorem hexadecimal_constant_compared :
    headerVariant.checkHeader (headerWith "( (0x14uLL))") = .ok () ∧
      Header.integer? "( (0x14uLL))" = some 20 ∧
      20 = headerVariant.byteLengths.signature.value := by
  have hconstant : Header.IsConstant .hexadecimal 20 "0x14uLL".toList :=
    ⟨"14".toList, "0x14".toList, "uLL".toList, .hexadecimal (.inl rfl) (by decide)
      (List.all_eq_true.mp (by decide)),
      ⟨"u", by decide, "LL", by decide, .inl rfl⟩, rfl, by decide⟩
  have henclosed : Header.Enclosed "0x14uLL".toList "( (0x14uLL))".toList :=
    .parentheses [] [] nofun nofun (.parentheses [' '] [] (List.all_eq_true.mp (by decide)) nofun
      (.bare [] [] nofun nofun))
  have hdefines : Header.Defines (headerWith "( (0x14uLL))") signatureName "( (0x14uLL))" :=
    ⟨keyLines.map String.toList, (signatureLine "( (0x14uLL))").toList,
      [], by decide +kernel, by decide +kernel, nofun⟩
  have hok : headerVariant.checkHeader (headerWith "( (0x14uLL))") = .ok () := by decide +kernel
  obtain ⟨hread, -, hheaders⟩ := constants_compared_by_value hconstant henclosed
  have hsame :=
    (hheaders headerVariant _ [headerVariant.byteLengths.publicKey,
      headerVariant.byteLengths.secretKey] []
    headerVariant.byteLengths.signature rfl hdefines).2 hok
  exact ⟨hok, hread.mpr ⟨hsame.1, nofun⟩, hsame.2.mpr nofun⟩

/-- A header that defines the length of signatures by an octal constant is accepted although a
compiler takes it for another number than that of the generated constant. -/
theorem octal_constant_accepted_in_decimal :
    Header.IsConstant .octal 16 "020".toList ∧ Header.Enclosed "020".toList "020".toList ∧
      Header.Defines (headerWith "020") signatureName "020" ∧
        headerVariant.checkHeader (headerWith "020") = .ok () ∧
      headerVariant.byteLengths.signature = ⟨signatureName, 20⟩ := by
  refine ⟨?_, .bare [] [] nofun nofun, ?_, by decide +kernel, by decide +kernel⟩
  · exact ⟨"020".toList, "020".toList, [], .octal (List.all_eq_true.mp (by decide)),
      ⟨"", by decide, "", by decide, .inl rfl⟩, rfl, by decide⟩
  · exact ⟨keyLines.map String.toList, (signatureLine "020").toList,
      [], by decide +kernel, by decide +kernel, nofun⟩

end Bindery
