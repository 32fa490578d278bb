/-
# Bindery.Proofs.Header.Definitions -- what a header defines.

A header defines a name by the last of its lines that does.  `Header.Defines` says so in terms of
the lines, and it is what the map of definitions gives.  The map of a text that is put together at
the end of a line gives what the later part defines, and else what the earlier part does.
-/
import Bindery.Header.Definitions
import Bindery.Proofs.Catalog.NameMaps
import Bindery.Proofs.Text.Lines

namespace Bindery

/-- **`Header.Defines header name text`** -- a line of the header defines the name as the text, and
no line after it defines it. -/
def Header.Defines (header name text : String) : Prop :=
  ∃ earlier l later, Text.lines header.toList = earlier ++ l :: later ∧
    definition? l = some (name, text) ∧
    ∀ other ∈ later, ∀ value, definition? other ≠ some (name, value)

namespace Header

variable {header name text : String}

/-! ## Characters of names -/

/-- The characters of names have codes below 128. -/
theorem toNat_lt_of_isNameChar {c : Char} (h : isNameChar c = true) : c.toNat < 128 := by
  -- letters and digits are ranges of codes
  have hcodes : (((decide ('A'.val ≤ c.val ∧ c.val ≤ 'Z'.val) ||
      (decide ('a'.val ≤ c.val) && decide (c.val ≤ 'z'.val))) ||
      (decide ('0'.val ≤ c.val) && decide (c.val ≤ '9'.val))) || c == '_') = true := h
  simp only [Bool.or_eq_true, Bool.and_eq_true, decide_eq_true_eq, beq_iff_eq,
    UInt32.le_iff_toNat_le] at hcodes
  rcases hcodes with ((⟨-, hle⟩ | ⟨-, hle⟩) | ⟨-, hle⟩) | rfl
  · exact Nat.lt_of_le_of_lt hle (by decide)
  · exact Nat.lt_of_le_of_lt hle (by decide)
  · exact Nat.lt_of_le_of_lt hle (by decide)
  · decide

/-- The characters of names are among the first 128 characters. -/
theorem exists_ofNat_of_isNameChar {c : Char} (h : isNameChar c = true) :
    ∃ n < 128, c = Char.ofNat n :=
  ⟨c.toNat, toNat_lt_of_isNameChar h, (Char.ofNat_toNat c).symm⟩

/-- No blank stands in a name. -/
theorem isBlank_of_isNameChar {c : Char} (h : isNameChar c = true) : Text.isBlank c = false := by
  have hall : ∀ n < 128, isNameChar (Char.ofNat n) = true → Text.isBlank (Char.ofNat n) =
    false := by decide
  obtain ⟨n, hn, rfl⟩ := exists_ofNat_of_isNameChar h
  exact hall n hn h

/-! ## Comments -/

/-- A text without slashes is not cut. -/
theorem beforeComment_append {s : List Char} (h : '/' ∉ s) (rest : List Char) :
    beforeComment (s ++ rest) = s ++ beforeComment rest := by
  induction s with
  | nil => rfl
  | cons c s ih =>
    rw [List.mem_cons, not_or] at h
    rw [List.cons_append, beforeComment, ih h.2, List.cons_append]
    · intro _ hc
      exact absurd hc.symm h.1
    · intro _ hc
      exact absurd hc.symm h.1

/-- What is cut off is nothing or starts with a slash. -/
theorem exists_eq_beforeComment_append (l : List Char) :
    ∃ comment, l = beforeComment l ++ comment ∧ ∀ c ∈ comment.head?, c = '/' := by
  fun_induction beforeComment l with
  | case1 rest => exact ⟨'/' :: '/' :: rest, rfl, by simp⟩
  | case2 rest => exact ⟨'/' :: '*' :: rest, rfl, by simp⟩
  | case3 c rest _ _ ih =>
    obtain ⟨comment, hrest, hcomment⟩ := ih
    exact ⟨comment, by rw [List.cons_append, ← hrest], hcomment⟩
  | case4 => exact ⟨[], rfl, by simp⟩

/-- Only characters of the text are left of it. -/
theorem mem_of_mem_beforeComment {l : List Char} {c : Char} (h : c ∈ beforeComment l) : c ∈ l := by
  obtain ⟨comment, hl, -⟩ := exists_eq_beforeComment_append l
  rw [hl]
  exact List.mem_append_left _ h

/-- A text without comment openers is not cut. -/
theorem beforeComment_eq_self {l : List Char} (hline : ¬ "//".toList <:+: l)
    (hblock : ¬ "/*".toList <:+: l) :
    beforeComment l = l := by
  fun_induction beforeComment l with
  | case1 rest => exact absurd (List.prefix_append _ rest).isInfix hline
  | case2 rest => exact absurd (List.prefix_append _ rest).isInfix hblock
  | case3 c rest _ _ ih =>
    -- what opens a comment further on would do so in the whole text
    have hrest : rest <:+: c :: rest := (List.suffix_cons c rest).isInfix
    rw [ih (fun h => hline (h.trans hrest)) (fun h => hblock (h.trans hrest))]
  | case4 => rfl

/-! ## One header -/

/-- Definitions are looked up from the last one back. -/
theorem find?_definitions (header name : String) :
    (definitions header).find? name =
        ((Text.lines header.toList).filterMap definition?).reverse.lookup name := by
  rw [definitions, NameMap.find?_ofList]

/-- Nothing is found under a name that no line defines. -/
theorem find?_definitions_eq_none_iff :
    (definitions header).find? name = none ↔ ∀ l ∈ Text.lines header.toList, ∀ value,
        definition? l ≠ some (name, value) := by
  rw [find?_definitions, List.lookup_eq_none_iff]
  simp only [List.mem_reverse, List.mem_filterMap, bne_iff_ne]
  constructor
  · intro h l hl value hdefines
    exact h (name, value) ⟨l, hl, hdefines⟩ rfl
  · rintro h ⟨other, value⟩ ⟨l, hl, hdefines⟩ rfl
    exact h l hl value hdefines

/-- **What is found under a name is what the last line that defines it gives.** -/
theorem find?_definitions_eq_some_iff : (definitions header).find? name = some text ↔
    Defines header name text := by
  rw [find?_definitions, List.lookup_eq_some_iff]
  constructor
  · rintro ⟨later, earlier, hpairs, hlater⟩
    rw [List.reverse_eq_iff, List.reverse_append, List.reverse_cons, List.append_assoc,
      List.singleton_append, List.filterMap_eq_append_iff] at hpairs
    obtain ⟨front, back, hlines, -, hback⟩ := hpairs
    obtain ⟨skipped, l, rest, rfl, -, hl, hrest⟩ := List.filterMap_eq_cons_iff.mp hback
    refine ⟨front ++ skipped, l, rest, by rw [hlines, List.append_assoc], hl, ?_⟩
    intro other hother value hdefines
    have hmem : (name, value) ∈ later := by
      rw [← List.mem_reverse, ← hrest]
      exact List.mem_filterMap.mpr ⟨other, hother, hdefines⟩
    simpa using hlater (name, value) hmem
  · rintro ⟨earlier, l, rest, hlines, hl, hrest⟩
    refine ⟨(rest.filterMap definition?).reverse, (earlier.filterMap definition?).reverse, ?_, ?_⟩
    · rw [hlines, List.filterMap_append, List.filterMap_cons_some hl, List.reverse_append,
        List.reverse_cons, List.append_assoc, List.singleton_append]
    · rintro ⟨other, value⟩ hpair
      rw [List.mem_reverse, List.mem_filterMap] at hpair
      obtain ⟨line, hline, hdefines⟩ := hpair
      rw [bne_iff_ne]
      rintro rfl
      exact hrest line hline value hdefines

theorem Defines.find? (h : Defines header name text) :
    (definitions header).find? name = some text :=
  find?_definitions_eq_some_iff.mpr h

/-! ## Headers that are put together -/

/-- **`IsClosed s`** -- the text is empty or its last line is ended, so that what is put behind it
starts a line. -/
def IsClosed (s : String) : Prop :=
  s = "" ∨ s.toList.getLast? = some '\n'

/-- Behind a closed text, the later definitions come before the earlier ones. -/
theorem find?_definitions_append {first : String} (h : IsClosed first) (second : String)
    (name : String) :
    (definitions (first ++ second)).find? name = ((definitions second).find? name).or
        ((definitions first).find? name) := by
  have hclosed : first.toList = [] ∨ first.toList.getLast? = some '\n' := by
    refine h.imp_left ?_
    rintro rfl
    rfl
  simp only [find?_definitions, String.toList_append, Text.lines_append hclosed,
    List.filterMap_append, List.reverse_append, List.lookup_append]

/-- What the first line defines counts where nothing behind it defines the name. -/
theorem find?_definitions_line_append {l : String} (hline : '\n' ∉ l.toList) (rest name : String) :
    (definitions (l ++ "\n" ++ rest)).find? name =
      ((definitions rest).find? name).or
          ((definition? (Text.dropReturn l.toList)).toList.lookup name) := by
  have htext : (l ++ "\n" ++ rest).toList = l.toList ++ '\n' :: rest.toList := by simp
  rw [find?_definitions, find?_definitions, htext, Text.lines_cons_line hline]
  cases hdefines : definition? (Text.dropReturn l.toList) with
  | none =>
    rw [List.filterMap_cons_none hdefines, Option.toList_none, List.lookup_nil, Option.or_none]
  | some pair =>
    rw [List.filterMap_cons_some hdefines, List.reverse_cons, List.lookup_append,
      Option.toList_some]

/-- Headers define the same when every name has the same definition. -/
theorem definitions_eq_iff {header' : String} :
    definitions header = definitions header' ↔ ∀ name, (definitions header).find? name =
        (definitions header').find? name :=
  NameMap.ofList_eq_ofList_iff

end Header

end Bindery
