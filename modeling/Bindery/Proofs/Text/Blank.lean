/-
# Bindery.Proofs.Text.Blank -- what trimming leaves.

Trimming takes blanks off both ends and nothing else: every text is what trimming leaves of it,
framed by blanks; and a text that is framed by blanks gives the text inside, provided that its own
ends are not blank.
-/
import Bindery.Text.Blank
import Mathlib.Data.List.Basic
import Mathlib.Data.List.TakeWhile

namespace Bindery.Text

/-! ## Trimming -/

/-- Trimming the end takes off the end. -/
theorem trimEnd_prefix (s : List Char) : trimEnd s <+: s := by
  rw [trimEnd, ← List.reverse_suffix, List.reverse_reverse]
  exact List.dropWhile_suffix _

/-- What trimming leaves does not start with a blank. -/
theorem trimStart_trim (s : List Char) : trimStart (trim s) = trim s := by
  have hsuffix : trimEnd (trimStart s) <+: trimStart s := trimEnd_prefix _
  cases hend : trim s with
  | nil => rfl
  | cons c rest =>
    obtain ⟨dropped, hstart⟩ := hsuffix
    rw [← trim, hend] at hstart
    -- the first character is what stopped the removal of blanks at the front
    have hblank : isBlank c = false := by
      have hhead := List.head?_dropWhile_not isBlank s
      rw [← trimStart, ← hstart] at hhead
      simpa using hhead
    rw [trimStart, List.dropWhile_cons_of_neg (by simp [hblank])]

/-- A trimmed text neither starts nor ends with a blank. -/
theorem isBlank_ends_trim (s : List Char) :
    (∀ c ∈ (trim s).head?, isBlank c = false) ∧ ∀ c ∈ (trim s).getLast?, isBlank c = false := by
  constructor
  · intro c hc
    have hhead := List.head?_dropWhile_not isBlank (trim s)
    rw [← trimStart, trimStart_trim, Option.mem_def.mp hc] at hhead
    simpa using hhead
  · intro c hc
    have hhead := List.head?_dropWhile_not isBlank (trimStart s).reverse
    rw [trim, trimEnd, List.getLast?_reverse] at hc
    rw [Option.mem_def.mp hc] at hhead
    simpa using hhead

/-- Trimming takes blanks off both ends. -/
theorem exists_trim_frame (s : List Char) :
    ∃ before after, s = before ++ (trim s ++ after) ∧ (∀ c ∈ before, isBlank c = true) ∧
        ∀ c ∈ after, isBlank c = true := by
  refine ⟨s.takeWhile isBlank, ((trimStart s).reverse.takeWhile isBlank).reverse, ?_, ?_, ?_⟩
  · have hend : trim s ++ ((trimStart s).reverse.takeWhile isBlank).reverse = trimStart s := by
      rw [trim, trimEnd, ← List.reverse_append, List.takeWhile_append_dropWhile,
        List.reverse_reverse]
    rw [hend, trimStart, List.takeWhile_append_dropWhile]
  · exact fun c hc => List.mem_takeWhile_imp hc
  · exact fun c hc => List.mem_takeWhile_imp (List.mem_reverse.mp hc)

/-- **`Blank s`** -- all characters of the text are blank. -/
def Blank (s : String) : Prop :=
  ∀ c ∈ s.toList, isBlank c = true

/-- Trimming leaves nothing of a blank text, and something of any other. -/
theorem isEmpty_trim_iff {s : String} : (trim s.toList).isEmpty = true ↔ Blank s := by
  rw [List.isEmpty_iff, trim, trimEnd, List.reverse_eq_nil_iff, List.dropWhile_eq_nil_iff]
  simp only [List.mem_reverse]
  constructor
  · intro hrest c hc
    rw [← List.takeWhile_append_dropWhile (p := isBlank) (l := s.toList)] at hc
    rcases List.mem_append.mp hc with hc | hc
    · exact List.mem_takeWhile_imp hc
    · exact hrest c hc
  · intro hblank c hc
    exact hblank c ((List.dropWhile_suffix _).subset hc)

/-- Blanks in front of a text whose first character is not blank are taken off. -/
theorem trimStart_append {blanks s : List Char} (hblanks : ∀ c ∈ blanks, isBlank c = true)
    (hfirst : ∀ c ∈ s.head?, isBlank c = false) : trimStart (blanks ++ s) = s := by
  rw [trimStart, List.dropWhile_append_of_pos hblanks]
  cases s with
  | nil => rfl
  | cons c rest => exact List.dropWhile_cons_of_neg (by simp [hfirst c rfl])

/-- Blanks behind a text whose last character is not blank are taken off. -/
theorem trimEnd_append {s blanks : List Char} (hblanks : ∀ c ∈ blanks, isBlank c = true)
    (hlast : ∀ c ∈ s.getLast?, isBlank c = false) : trimEnd (s ++ blanks) = s := by
  have hreversed : trimStart (blanks.reverse ++ s.reverse) = s.reverse := by
    refine trimStart_append (fun c hc => hblanks c (List.mem_reverse.mp hc)) ?_
    rw [List.head?_reverse]
    exact hlast
  rw [trimEnd, List.reverse_append, ← trimStart, hreversed, List.reverse_reverse]

/-- Blanks at the end make no difference to trimming. -/
theorem trim_append_blanks {blanks : List Char} (hblanks : ∀ c ∈ blanks, isBlank c = true)
    (s : List Char) : trim (s ++ blanks) = trim s := by
  have hend : ∀ front : List Char, trimEnd (front ++ blanks) = trimEnd front := by
    intro front
    rw [trimEnd, List.reverse_append,
      List.dropWhile_append_of_pos fun c hc => hblanks c (List.mem_reverse.mp hc), ← trimEnd]
  rw [trim, trimStart, List.dropWhile_append]
  split
  · rename_i hempty
    have hrest : blanks.dropWhile isBlank = [] := List.dropWhile_eq_nil_iff.mpr hblanks
    rw [trim, trimStart, List.isEmpty_iff.mp hempty, hrest]
  · rw [hend, trim, trimStart]

/-- Behind a character that is not blank, blanks are taken off the end of the rest. -/
theorem trimEnd_append_of_getLast? {front : List Char} (hne : front ≠ [])
    (hlast : ∀ c ∈ front.getLast?, isBlank c = false) (s : List Char) :
    trimEnd (front ++ s) = front ++ trimEnd s := by
  obtain ⟨rest, c, rfl⟩ := (List.eq_nil_or_concat' front).resolve_left hne
  have hblank : isBlank c = false := hlast c (by simp)
  rw [trimEnd, List.reverse_append, List.dropWhile_append, trimEnd]
  split
  · rename_i hempty
    rw [List.isEmpty_iff.mp hempty, List.reverse_concat,
      List.dropWhile_cons_of_neg (by simp [hblank])]
    simp
  · simp

/-- Trimming takes off what trimming the end does. -/
theorem trim_trimEnd (s : List Char) : trim (trimEnd s) = trim s := by
  have hsplit : s = trimEnd s ++ (s.reverse.takeWhile isBlank).reverse := by
    rw [trimEnd, ← List.reverse_append, List.takeWhile_append_dropWhile, List.reverse_reverse]
  conv_rhs => rw [hsplit]
  refine (trim_append_blanks (fun c hc => ?_) _).symm
  exact List.mem_takeWhile_imp (List.mem_reverse.mp hc)

/-- **A text framed by blanks is what trimming leaves of it.** -/
theorem trim_frame {before s after : List Char} (hbefore : ∀ c ∈ before, isBlank c = true)
    (hafter : ∀ c ∈ after, isBlank c = true)
    (hne : s ≠ []) (hfirst : ∀ c ∈ s.head?, isBlank c = false)
    (hlast : ∀ c ∈ s.getLast?, isBlank c = false) :
    trim (before ++ s ++ after) = s := by
  have hstart : trimStart (before ++ (s ++ after)) = s ++ after := by
    refine trimStart_append hbefore ?_
    rwa [List.head?_append_of_ne_nil _ hne]
  rw [trim, List.append_assoc, hstart, trimEnd_append hafter hlast]

/-- A last character that is not blank stays the last one. -/
theorem getLast?_trim {s : List Char} {c : Char} (h : s.getLast? = some c)
    (hblank : isBlank c = false) :
    (trim s).getLast? = some c := by
  obtain ⟨front, rfl⟩ := List.getLast?_eq_some_iff.mp h
  have hstart : (trimStart (front ++ [c])).getLast? = some c := by
    rw [trimStart, List.dropWhile_append]
    split
    · rw [List.dropWhile_cons_of_neg (by simp [hblank])]
      rfl
    · exact List.getLast?_concat
  have hend : trimEnd (trimStart (front ++ [c]) ++ []) = trimStart (front ++ [c]) := by
    refine trimEnd_append (by simp) ?_
    rw [hstart]
    rintro _ ⟨⟩
    exact hblank
  rw [trim, ← List.append_nil (trimStart (front ++ [c])), hend, hstart]

end Bindery.Text
