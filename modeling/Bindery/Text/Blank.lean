/-
# Bindery.Text.Blank -- blank characters, trimming, and the words and lines of a text.

Type expressions, macro definitions and descriptions are all read through the same few cuts of a
text: the pieces between separators, the text without its outer blanks, its words, and its lines.  A
blank is a character with the Unicode property White_Space (25 characters since version 6.3); a line
ends at a line feed, which may be preceded by one carriage return. All functions work on
`List Char`.
-/

namespace Bindery.Text

/-! ## Blank characters -/

/-- The closed ranges of code points with the property White_Space, ascending and apart. -/
def blankRanges : List (Nat × Nat) :=
  [(0x09, 0x0D), (0x20, 0x20), (0x85, 0x85), (0xA0, 0xA0), (0x1680, 0x1680), (0x2000, 0x200A),
    (0x2028, 0x2029), (0x202F, 0x202F), (0x205F, 0x205F), (0x3000, 0x3000)]

/-- A character is blank when its code point lies in one of the ranges. -/
def isBlank (c : Char) : Bool :=
  blankRanges.any fun range => range.1 ≤ c.toNat && c.toNat ≤ range.2

example : (blankRanges.map fun range => range.2 + 1 - range.1).sum = 25 := by decide

example : isBlank '\u200b' = false := by decide

/-! ## Cuts -/

/-- No piece between separators holds a separator. -/
theorem splitOnP_free (sep : Char → Bool) (s : List Char) : ∀ piece ∈ s.splitOnP sep, ∀ c ∈ piece,
    sep c = false := by
  induction s with
  | nil => simp
  | cons c rest ih =>
    rw [List.splitOnP_cons_eq_if_modifyHead]
    by_cases hc : sep c = true
    · simpa [hc] using ih
    · obtain ⟨piece, others, heq⟩ := List.exists_cons_of_ne_nil (List.splitOnP_ne_nil sep rest)
      rw [heq] at ih
      simp only [hc, Bool.false_eq_true, if_false, heq, List.modifyHead_cons]
      intro p hp d hd
      rcases List.mem_cons.1 hp with rfl | hp
      · rcases List.mem_cons.1 hd with rfl | hd
        · simpa using hc
        · exact ih _ List.mem_cons_self d hd
      · exact ih _ (List.mem_cons_of_mem _ hp) d hd

/-- The text without its trailing blanks. -/
def trimEnd (s : List Char) : List Char :=
  (s.reverse.dropWhile isBlank).reverse

/-- The text without its leading blanks. -/
def trimStart (s : List Char) : List Char :=
  s.dropWhile isBlank

/-- The text without its outer blanks. -/
def trim (s : List Char) : List Char :=
  trimEnd (trimStart s)

/-- **`stripKeyword? keyword s`** -- what follows a leading keyword, if a blank does. -/
def stripKeyword? (keyword s : List Char) : Option (List Char) :=
  match keyword.isPrefixOf? s with
  | some (c :: rest) => if isBlank c then some (c :: rest) else none
  | _ => none

/-! ## Words -/

/-- **`words s`** -- the maximal runs of characters that are not blank, in order. -/
def words (s : List Char) : List (List Char) :=
  (s.splitOnP isBlank).filter fun piece => !piece.isEmpty

/-- The words of a text joined by single spaces, so that texts that differ only in blanks become
equal. -/
def collapse (s : List Char) : List Char :=
  [' '].intercalate (words s)

/-! ## Lines -/

/-- A line that ends at a line feed loses one carriage return right before it. -/
def dropReturn (line : List Char) : List Char :=
  if line.getLast? = some '\r' then line.dropLast else line

/-- **`lines s`** -- the lines of a text.  A line feed ends a line, so a text that ends with one has
no empty last line, and a carriage return belongs to the line unless a line feed follows it. -/
def lines (s : List Char) : List (List Char) :=
  let parts := s.splitOnP (· == '\n')
  let unfinished := parts.getLast?.getD []
  parts.dropLast.map dropReturn ++ (if unfinished.isEmpty then [] else [unfinished])

example : lines "a\r\n\nb\r".toList = [['a'], [], ['b', '\r']] := by decide

end Bindery.Text
