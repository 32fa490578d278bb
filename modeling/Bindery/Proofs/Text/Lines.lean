/-
# Bindery.Proofs.Text.Lines -- the lines of texts that are put together.

A line feed ends a line whatever follows it.  So the lines of a text that holds a line feed are
those up to it and those after it, and a text that is empty or ends with a line feed keeps its lines
when another text is put behind it.
-/
import Bindery.Text.Blank
import Mathlib.Data.List.Basic

namespace Bindery.Text

/-- The lines up to a line feed, which ends the last of them. -/
theorem lines_append_lineFeed (s t : List Char) :
    lines (s ++ '\n' :: t) = (s.splitOnP (· == '\n')).map dropReturn ++ lines t := by
  have hparts : (s ++ '\n' :: t).splitOnP (· == '\n') = s.splitOnP (· == '\n') ++
      t.splitOnP (· == '\n') :=
    List.splitOnP_append_cons s t rfl
  have hne : t.splitOnP (· == '\n') ≠ [] := List.splitOnP_ne_nil _ t
  simp only [lines, hparts, List.dropLast_append_of_ne_nil hne,
    List.getLast?_append_of_ne_nil _ hne, List.map_append, List.append_assoc]

/-- A line feed ends the first line. -/
theorem lines_cons_line {first : List Char} (h : '\n' ∉ first) (rest : List Char) :
    lines (first ++ '\n' :: rest) = dropReturn first :: lines rest := by
  have hparts : first.splitOnP (· == '\n') = [first] := by
    refine List.splitOnP_eq_singleton ?_
    intro c hc
    exact beq_eq_false_iff_ne.mpr fun hsame => h (hsame ▸ hc)
  rw [lines_append_lineFeed, hparts]
  rfl

/-- The first line of a text that holds a line feed, and the lines after it. -/
theorem lines_of_mem {s : List Char} (h : '\n' ∈ s) :
    lines s = dropReturn (s.takeWhile (· != '\n')) :: lines (s.dropWhile (· != '\n')).tail := by
  obtain ⟨first, rest, rfl, hfirst⟩ := List.eq_append_cons_of_mem h
  have hpass : ∀ c ∈ first, (c != '\n') = true :=
    fun c hc => bne_iff_ne.mpr fun hsame => hfirst (hsame ▸ hc)
  rw [List.takeWhile_append_of_pos hpass, List.dropWhile_append_of_pos hpass,
    lines_cons_line hfirst]
  simp

/-- **A text that is empty or ends with a line feed keeps its lines in front of any other text.** -/
theorem lines_append {s : List Char} (h : s = [] ∨ s.getLast? = some '\n') (t : List Char) :
    lines (s ++ t) = lines s ++ lines t := by
  rcases h with rfl | h
  · rfl
  · obtain ⟨front, rfl⟩ := List.getLast?_eq_some_iff.mp h
    rw [List.append_assoc, List.singleton_append, lines_append_lineFeed, lines_append_lineFeed]
    simp [lines]

end Bindery.Text
