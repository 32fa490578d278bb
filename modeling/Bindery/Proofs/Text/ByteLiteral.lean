/-
# Bindery.Proofs.Text.ByteLiteral -- byte literals can be read back, and end where they were ended.

Generated source holds a message as a byte literal, so what the source says is the bytes that the
literal denotes.  `readBytes?` reads a literal from behind the quote that opens it, by the full
rules of the generated language: short escapes, escapes of two hexadecimal digits, and line breaks
that a backslash takes back; it goes on to the quote that ends the literal and gives what follows
it.  A written body consists of pieces, one for every byte, each of which is a printable character
for itself or an escape.  Reading takes up one piece after another, whatever follows, so no message
can end its literal early.
-/
import Bindery.Proofs.Text.Literal
import Mathlib.Data.List.Forall2

namespace Bindery.Text

/-! ## Reading -/

/-- The byte of the escape that starts behind a backslash, and what follows it. -/
def escapedByte? : List Char → Option (UInt8 × List Char)
  | 'x' :: high :: low :: rest => (number? 16 [high, low]).map fun value =>
      (UInt8.ofNat value, rest)
  | letter :: rest => (ofShortEscape? letter).map fun c => (UInt8.ofNat c.toNat, rest)
  | [] => none

/-- What follows an escape is shorter than the text that it starts. -/
theorem length_of_escapedByte? {s rest : List Char} {b : UInt8}
    (h : escapedByte? s = some (b, rest)) : rest.length < s.length := by
  unfold escapedByte? at h
  split at h
  · obtain ⟨value, -, hrest⟩ := Option.map_eq_some_iff.mp h
    cases hrest
    simp only [List.length_cons]
    omega
  · obtain ⟨c, -, hrest⟩ := Option.map_eq_some_iff.mp h
    cases hrest
    simp
  · cases h

/-- **`readBytes? s`** -- the bytes that a byte literal denotes and what follows it, where `s` is
what follows the quote that opens it.  A quote ends the literal; a carriage return and anything
beyond ASCII must not stand in it. -/
def readBytes? : List Char → Option (List UInt8 × List Char)
  | [] => none
  | '"' :: rest => some ([], rest)
  | '\r' :: _ => none
  | '\\' :: '\n' :: rest => readBytes? (rest.dropWhile isGap)
  | '\\' :: rest =>
    match _h : escapedByte? rest with
    | some (b, after) => (readBytes? after).map (Prod.map (b :: ·) id)
    | none => none
  | c :: rest =>
    if c.toNat ≤ 0x7F then (readBytes? rest).map (Prod.map (UInt8.ofNat c.toNat :: ·) id) else none
termination_by s => s.length
decreasing_by
  · have hsuffix := (List.dropWhile_suffix (l := rest) isGap).length_le
    simp only [List.length_cons]
    omega
  · have hshorter := length_of_escapedByte? _h
    simp only [List.length_cons]
    omega
  · simp

/-! ## Pieces -/

/-- **`IsPiece piece b`** -- the piece denotes the byte in the body of a literal: it is a printable
character for itself, which is no quote and no backslash, or an escape. -/
inductive IsPiece : List Char → UInt8 → Prop
  | plain {c : Char} : isPlain c = true → c ≠ '"' → c ≠ '\\' → IsPiece [c] (UInt8.ofNat c.toNat)
  | short {letter c : Char} : ofShortEscape? letter = some c →
      IsPiece ['\\', letter] (UInt8.ofNat c.toNat)
  | digits {high low : Char} {value : Nat} : number? 16 [high, low] = some value →
      IsPiece ['\\', 'x', high, low] (UInt8.ofNat value)

theorem isPlain_iff {c : Char} : isPlain c = true ↔ 0x20 ≤ c.toNat ∧ c.toNat ≤ 0x7E := by
  simp [isPlain]

/-- The letters of short escapes. -/
def shortLetters : List Char :=
  "trn0'\"\\".toList

theorem mem_shortLetters {letter c : Char} (h : ofShortEscape? letter = some c) :
    letter ∈ shortLetters := by
  unfold ofShortEscape? at h
  split at h <;> first | decide | cases h

/-- A number has digits alone. -/
theorem mem_digitChars_of_number? {radix value : Nat} {s : List Char}
    (h : number? radix s = some value) : ∀ c ∈ s, c ∈ digitChars := by
  intro c hc
  unfold number? at h
  split at h
  · rename_i hdigits
    rw [Bool.and_eq_true, List.all_eq_true] at hdigits
    obtain ⟨digit, hdigit, -⟩ := isDigitOf_iff.mp (hdigits.2 c hc)
    exact mem_digitChars hdigit
  · cases h

namespace IsPiece

variable {piece : List Char} {b : UInt8}

/-- A piece is printable. -/
theorem isPlain_of_mem (h : IsPiece piece b) : ∀ c ∈ piece, isPlain c = true := by
  have hbackslash : isPlain '\\' = true := by decide
  cases h with
  | plain hplain _ _ => exact fun c hc => List.mem_singleton.mp hc ▸ hplain
  | short hletter =>
    have hletters : shortLetters.all isPlain = true := by decide
    simpa [hbackslash] using List.all_eq_true.mp hletters _ (mem_shortLetters hletter)
  | digits hvalue =>
    have hdigits : digitChars.all isPlain = true := by decide
    have hx : isPlain 'x' = true := by decide
    have hpair := mem_digitChars_of_number? hvalue
    rw [List.all_eq_true] at hdigits
    simp only [List.forall_mem_cons] at hpair ⊢
    exact ⟨hbackslash, hx, hdigits _ hpair.1, hdigits _ hpair.2.1, by simp⟩

/-- A backslash with a letter or digits behind it is read as the byte that it denotes. -/
theorem read_escape {s rest : List Char} (h : escapedByte? s = some (b, rest))
    (hbreak : s.head? ≠ some '\n') :
    readBytes? ('\\' :: s) = (readBytes? rest).map (Prod.map (b :: ·) id) := by
  rw [readBytes?]
  · split
    · rename_i heq
      rw [h] at heq
      cases heq
      rfl
    · rename_i heq
      rw [h] at heq
      cases heq
  · rintro after rfl
    exact hbreak rfl

/-- **A piece is read as the byte that it denotes**, whatever follows it. -/
theorem read (h : IsPiece piece b) (rest : List Char) :
    readBytes? (piece ++ rest) = (readBytes? rest).map (Prod.map (b :: ·) id) := by
  cases h with
  | @plain c hplain hquote hbackslash =>
    obtain ⟨hlow, hhigh⟩ := isPlain_iff.mp hplain
    have hreturn : c ≠ '\r' := by
      rintro rfl
      exact absurd hlow (by decide)
    have hascii : c.toNat ≤ 0x7F := by omega
    rw [List.singleton_append, readBytes?.eq_def]
    split <;> simp_all
  | @short letter c hletter =>
    have hescape : escapedByte? (letter :: rest) = some (UInt8.ofNat c.toNat, rest) := by
      have hx : letter ≠ 'x' := by
        rintro rfl
        cases hletter
      rw [escapedByte?.eq_def]
      split <;> simp_all
    refine read_escape hescape ?_
    rintro hbreak
    obtain rfl : letter = '\n' := by simpa using hbreak
    cases hletter
  | @digits high low value hvalue =>
    have hescape : escapedByte? ('x' :: high :: low :: rest) = some (UInt8.ofNat value, rest) := by
      rw [escapedByte?, hvalue]
      rfl
    exact read_escape hescape (by simp)

end IsPiece

/-! ## Written bodies -/

/-- A byte is the code of its character. -/
theorem toNat_ofNat_byte (b : UInt8) : (Char.ofNat b.toNat).toNat = b.toNat := by
  have hvalid : b.toNat.isValidChar := Or.inl (by have := b.toNat_lt; omega)
  rw [Char.ofNat, dif_pos hvalid]
  rfl

/-- Two hexadecimal digits write a byte. -/
theorem number?_hexDigits {n : Nat} (h : n < 256) :
    number? 16 [(n / 16).digitChar, (n % 16).digitChar] = some n := by
  have hhigh : n / 16 < 16 := by omega
  have hlow : n % 16 < 16 := by omega
  have hdigit : ∀ d < 16, isDigitOf 16 d.digitChar = true :=
    fun d hd => isDigitOf_iff.mpr ⟨d, digitValue?_digitChar hd, hd⟩
  have hvalue : valueOf 16 [(n / 16).digitChar, (n % 16).digitChar] = n := by
    show valueOf 16 ([(n / 16).digitChar] ++ [(n % 16).digitChar]) = n
    rw [valueOf_concat, valueOf_digitChar hhigh, digitValue?_digitChar hlow, Option.getD_some]
    omega
  simp [number?, hdigit _ hhigh, hdigit _ hlow, hvalue]

/-- **What is written for a byte is a piece that denotes it.** -/
theorem isPiece_escapeByte (b : UInt8) : IsPiece (escapeByte b) b := by
  have hbyte : UInt8.ofNat (Char.ofNat b.toNat).toNat =
    b := by rw [toNat_ofNat_byte, UInt8.ofNat_toNat]
  unfold escapeByte
  dsimp only
  split
  · rename_i letter hletter
    have hshort := IsPiece.short (ofShortEscape?_of_shortEscape? hletter).1
    rwa [hbyte] at hshort
  · rename_i hnone
    split
    · rename_i hplain
      -- a quote and a backslash have short escapes
      have hpiece : IsPiece [Char.ofNat b.toNat] (UInt8.ofNat (Char.ofNat b.toNat).toNat) := by
        refine .plain hplain ?_ ?_ <;> intro hsame <;> rw [hsame] at hnone <;> cases hnone
      rwa [hbyte] at hpiece
    · have hdigits := IsPiece.digits (number?_hexDigits b.toNat_lt)
      rwa [UInt8.ofNat_toNat] at hdigits

/-- A written body is read up to the quote behind it. -/
theorem readBytes?_flatMap (bytes : List UInt8) (rest : List Char) :
    readBytes? (bytes.flatMap escapeByte ++ '"' :: rest) = some (bytes, rest) := by
  induction bytes with
  | nil => rw [List.flatMap_nil, List.nil_append, readBytes?]
  | cons b bytes ih =>
    rw [List.flatMap_cons, List.append_assoc, (isPiece_escapeByte b).read, ih]
    rfl

/-! ## Messages -/

/-- The bytes of a text are its encoding. -/
theorem utf8Bytes_eq (s : String) : utf8Bytes s = s.toUTF8.data.toList := by
  rw [String.toUTF8_eq_toByteArray, ← String.utf8Encode_toList]
  simp [List.utf8Encode, utf8Bytes]

theorem toList_byteLiteral (s : String) :
    (byteLiteral s).toList = (utf8Bytes s).flatMap escapeByte := by
  rw [byteLiteral, String.toList_ofList]

/-- The body that is written for a message is the pieces of its bytes, one after another. -/
theorem exists_pieces_byteLiteral (s : String) :
    ∃ pieces, (byteLiteral s).toList = pieces.flatten ∧
        List.Forall₂ IsPiece pieces (utf8Bytes s) := by
  refine ⟨(utf8Bytes s).map escapeByte, ?_, ?_⟩
  · rw [toList_byteLiteral, List.flatMap_def]
  · rw [List.forall₂_map_left_iff]
    exact List.forall₂_same.mpr fun b _ => isPiece_escapeByte b

/-- The body that is written for a message is printable. -/
theorem isPlain_of_mem_byteLiteral {s : String} {c : Char} (h : c ∈ (byteLiteral s).toList) :
    isPlain c = true := by
  rw [toList_byteLiteral] at h
  obtain ⟨b, -, hc⟩ := List.mem_flatMap.mp h
  exact (isPiece_escapeByte b).isPlain_of_mem c hc

/-- **What is written for a message is read as its bytes**, up to the quote that ends the literal.
-/
theorem readBytes?_byteLiteral (s : String) (rest : List Char) :
    readBytes? ((byteLiteral s).toList ++ '"' :: rest) = some (s.toUTF8.data.toList, rest) := by
  rw [toList_byteLiteral, readBytes?_flatMap, utf8Bytes_eq]

/-- **A message can be taken off the front of a text up to the quote that ends its literal.** -/
theorem byteLiteral_quote_inj {s s' : String} {rest rest' : List Char}
    (h : (byteLiteral s).toList ++ '"' :: rest = (byteLiteral s').toList ++ '"' :: rest') :
    s = s' ∧ rest = rest' := by
  have hread := congrArg readBytes? h
  rw [readBytes?_byteLiteral, readBytes?_byteLiteral] at hread
  obtain ⟨hbytes, hrest⟩ := Prod.mk.inj (Option.some.inj hread)
  exact ⟨String.toByteArray_inj.mp (ByteArray.ext (Array.toList_inj.mp hbytes)), hrest⟩

end Bindery.Text
