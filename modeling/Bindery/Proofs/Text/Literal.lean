/-
# Bindery.Proofs.Text.Literal -- string literals can be read back.

Generated source names a file in a string literal, so what the source says is the text that the
literal denotes.  This module reads the body of a string literal by the full rules of the generated
language: short escapes, byte escapes, code points in braces, and line breaks that a backslash takes
back.  Written bodies use a part of these rules, and reading one gives the text that was written.
-/
import Bindery.Proofs.Text.Digits
import Bindery.Text.Literal

namespace Bindery.Text

/-! ## Reading escapes -/

/-- The character that a letter behind a backslash stands for. -/
def ofShortEscape? : Char → Option Char
  | 't' => some '\t'
  | 'r' => some '\r'
  | 'n' => some '\n'
  | '0' => some '\x00'
  | '\'' => some '\''
  | '"' => some '"'
  | '\\' => some '\\'
  | _ => none

/-- The character of a code point; surrogates are none. -/
def ofCode? (code : Nat) : Option Char :=
  if code.isValidChar then some (Char.ofNat code) else none

/-- The character of a byte escape, which has two digits and is ASCII, and what follows it. -/
def byteEscape? : List Char → Option (Char × List Char)
  | high :: low :: rest => ((number? 16 [high, low]).filter (· ≤ 0x7F)).map fun code =>
      (Char.ofNat code, rest)
  | _ => none

/-- The code point between braces: one to six digits, behind each of which underscores may stand. -/
def codePoint? (s : List Char) : Option Nat :=
  let digits := s.filter (· != '_')
  if s.head? = some '_' ∨ 6 < digits.length then none else number? 16 digits

/-- The character of an escape by code point, of which `s` is what follows the opening brace, and
what follows it. -/
def codeEscape? (s : List Char) : Option (Char × List Char) :=
  match s.dropWhile (· != '\x7d') with
  | _ :: rest => ((codePoint? (s.takeWhile (· != '\x7d'))).bind ofCode?).map fun c => (c, rest)
  | [] => none

/-- The character of the escape that starts behind a backslash, and what follows it. -/
def escape? : List Char → Option (Char × List Char)
  | 'x' :: rest => byteEscape? rest
  | 'u' :: '\x7b' :: rest => codeEscape? rest
  | letter :: rest => (ofShortEscape? letter).map fun c => (c, rest)
  | [] => none

/-- What follows an escape is shorter than the text that it starts. -/
theorem length_of_escape? {s rest : List Char} {c : Char} (h : escape? s = some (c, rest)) :
    rest.length < s.length := by
  unfold escape? at h
  split at h
  · unfold byteEscape? at h
    split at h
    · obtain ⟨code, -, hrest⟩ := Option.map_eq_some_iff.mp h
      cases hrest
      simp only [List.length_cons]
      omega
    · cases h
  · rename_i inner
    unfold codeEscape? at h
    split at h
    · rename_i brace after hdrop
      obtain ⟨c', -, hrest⟩ := Option.map_eq_some_iff.mp h
      cases hrest
      have hsuffix := (List.dropWhile_suffix (l := inner) (· != '\x7d')).length_le
      rw [hdrop] at hsuffix
      simp only [List.length_cons] at hsuffix ⊢
      omega
    · cases h
  · obtain ⟨c', -, hrest⟩ := Option.map_eq_some_iff.mp h
    cases hrest
    simp
  · cases h

/-! ## Reading bodies -/

/-- The blanks that a backslash at the end of a line takes back together with the line break. -/
def isGap (c : Char) : Bool :=
  c == ' ' || c == '\t' || c == '\n' || c == '\r'

/-- **`readLiteral? s`** -- the text that the body of a string literal denotes.  A quote ends a
literal, so it stands in a body as an escape only, and so does a carriage return. -/
def readLiteral? : List Char → Option (List Char)
  | [] => some []
  | '"' :: _ => none
  | '\r' :: _ => none
  | '\\' :: '\n' :: rest => readLiteral? (rest.dropWhile isGap)
  | '\\' :: rest =>
    match _h : escape? rest with
    | some (c, after) => (readLiteral? after).map (c :: ·)
    | none => none
  | c :: rest => (readLiteral? rest).map (c :: ·)
termination_by s => s.length
decreasing_by
  · have hsuffix := (List.dropWhile_suffix (l := rest) isGap).length_le
    simp only [List.length_cons]
    omega
  · have hshorter := length_of_escape? _h
    simp only [List.length_cons]
    omega
  · simp

/-- **`denoted? body`** -- the text that a string literal with this body denotes. -/
def denoted? (body : String) : Option String :=
  (readLiteral? body.toList).map String.ofList

/-! ## Written bodies -/

/-- A character that stands for itself in a literal is read as itself. -/
theorem readLiteral?_cons {c : Char} (hquote : c ≠ '"') (hreturn : c ≠ '\r') (hbackslash : c ≠ '\\')
    (rest : List Char) :
    readLiteral? (c :: rest) = (readLiteral? rest).map (c :: ·) := by
  rw [readLiteral?.eq_def]
  split <;> simp_all

/-- An escape is read as the character that it denotes. -/
theorem readLiteral?_escape {c : Char} {s rest : List Char} (h : escape? s = some (c, rest))
    (hbreak : s.head? ≠ some '\n') :
    readLiteral? ('\\' :: s) = (readLiteral? rest).map (c :: ·) := by
  rw [readLiteral?]
  · split
    · rename_i heq
      rw [h] at heq
      cases heq
      rfl
    · rename_i heq
      rw [h] at heq
      cases heq
  · rintro after rfl
    exact hbreak rfl

/-- A short escape stands for the character that it was written for. -/
theorem ofShortEscape?_of_shortEscape? {c letter : Char} (h : shortEscape? c = some letter) :
    ofShortEscape? letter = some c ∧ letter ≠ 'x' ∧ letter ≠ 'u' ∧ letter ≠ '\n' := by
  unfold shortEscape? at h
  split at h <;> cases h <;> decide

theorem ofCode?_toNat (c : Char) : ofCode? c.toNat = some c := by
  have hvalid : c.toNat.isValidChar := c.valid
  rw [ofCode?, if_pos hvalid, Char.ofNat_toNat]

/-- A code point has at most six digits. -/
theorem length_hexDigits_le (c : Char) : (Nat.toDigits 16 c.toNat).length ≤ 6 := by
  rw [Nat.length_toDigits_le_iff (by omega) (by omega)]
  have hlt : c.toNat < 0x110000 := by
    have hvalid : c.toNat.isValidChar := c.valid
    rcases hvalid with h | ⟨-, h⟩ <;> omega
  omega

/-- An escape by code point is read as the character that it was written for. -/
theorem codeEscape?_toDigits (c : Char) (rest : List Char) :
    codeEscape? (Nat.toDigits 16 c.toNat ++ '\x7d' :: rest) = some (c, rest) := by
  have hdigit : ∀ d ∈ Nat.toDigits 16 c.toNat, isDigitOf 16 d = true :=
    isDigitOf_of_mem_toDigits (by omega) (by omega)
  have hbrace : ∀ d ∈ Nat.toDigits 16 c.toNat, (d != '\x7d') = true := by
    intro d hd
    rw [bne_iff_ne]
    rintro rfl
    exact absurd (hdigit _ hd) (by decide)
  have hunderscore : ∀ d ∈ Nat.toDigits 16 c.toNat, (d != '_') = true := by
    intro d hd
    rw [bne_iff_ne]
    rintro rfl
    exact absurd (hdigit _ hd) (by decide)
  have hhead : (Nat.toDigits 16 c.toNat).head? ≠ some '_' := by
    intro h
    exact absurd (hunderscore '_' (List.mem_of_mem_head? h)) (by decide)
  have hpoint : codePoint? (Nat.toDigits 16 c.toNat) = some c.toNat := by
    rw [codePoint?, List.filter_eq_self.mpr hunderscore]
    rw [if_neg (by rintro (h | h); exact hhead h; exact absurd (length_hexDigits_le c) (by omega))]
    exact number?_toDigits (by omega) (by omega) _
  rw [codeEscape?, List.dropWhile_append_of_pos hbrace, List.takeWhile_append_of_pos hbrace]
  simp [hpoint, ofCode?_toNat]

/-- **What is written for a character is read as that character.** -/
theorem readLiteral?_escapeChar (c : Char) (rest : List Char) :
    readLiteral? (escapeChar c ++ rest) = (readLiteral? rest).map (c :: ·) := by
  unfold escapeChar
  split
  · rename_i letter hletter
    obtain ⟨hshort, hx, hu, hbreak⟩ := ofShortEscape?_of_shortEscape? hletter
    have hescape : escape? (letter :: rest) = some (c, rest) := by
      rw [escape?.eq_def]
      split <;> simp_all
    exact readLiteral?_escape hescape (by simpa using hbreak)
  · rename_i hnone
    split
    · -- the characters that do not stand for themselves all have short escapes
      refine readLiteral?_cons ?_ ?_ ?_ rest <;> rintro rfl <;> cases hnone
    · have hescape : escape? ('u' :: '\x7b' :: (Nat.toDigits 16 c.toNat ++ '\x7d' :: rest)) =
          some (c, rest) := by
        rw [escape?, codeEscape?_toDigits]
      simpa using readLiteral?_escape hescape (by simp)

theorem readLiteral?_flatMap (s : List Char) : readLiteral? (s.flatMap escapeChar) = some s := by
  induction s with
  | nil => simp [readLiteral?]
  | cons c rest ih => rw [List.flatMap_cons, readLiteral?_escapeChar, ih, Option.map_some]

/-- **A written literal denotes the text that was written.** -/
theorem denoted?_stringLiteral (s : String) : denoted? (stringLiteral s) = some s := by
  rw [denoted?, stringLiteral, String.toList_ofList, readLiteral?_flatMap, Option.map_some,
    String.ofList_toList]

end Bindery.Text
