/-
# Bindery.Proofs.Header.Comments -- what block comments do to the definitions of a header.

A comment opener ends a line, and nothing is carried to the next line.  So a block comment is read
like what stands on its lines after the first, with the mark that closes it: a comment on one line
has no effect, and a definition on a further line of a comment counts like any other.  It goes
unnoticed only where the name is defined again behind the comment, or was last defined the same
before it.
-/
import Bindery.Proofs.Header.Definitions

namespace Bindery

namespace Header

/-! ## Lines of a comment -/

/-- What stands on the lines of a text after its first. -/
def afterFirstLine (s : String) : String :=
  String.ofList (s.toList.dropWhile (· != '\n')).tail

/-- A line that starts with a comment opener defines nothing. -/
theorem definition?_opener (rest : List Char) : definition? ('/' :: '*' :: rest) = none :=
  rfl

/-- The end of a line does not take a comment opener off its start. -/
theorem dropReturn_opener (rest : List Char) :
    ∃ kept, Text.dropReturn ('/' :: '*' :: rest) = '/' :: '*' :: kept := by
  rw [Text.dropReturn]
  split
  · cases rest with
    | nil => simp at *
    | cons c rest => exact ⟨(c :: rest).dropLast, rfl⟩
  · exact ⟨rest, rfl⟩

/-- What follows the first line of a closed text is closed. -/
theorem isClosed_afterFirstLine {s : String} (h : s.toList.getLast? = some '\n') :
    IsClosed (afterFirstLine s) := by
  have hsuffix : (s.toList.dropWhile (· != '\n')).tail <:+ s.toList :=
    (List.tail_suffix _).trans (List.dropWhile_suffix _)
  rw [IsClosed, afterFirstLine, String.toList_ofList]
  rcases List.eq_nil_or_concat (s.toList.dropWhile (· != '\n')).tail with hnone |
    ⟨front, last, hrest⟩
  · exact Or.inl (by rw [hnone])
  · right
    obtain ⟨before, hbefore⟩ := hsuffix
    rw [← hbefore, hrest] at h
    simpa [hrest] using h

/-- The mark that closes a comment ends its line here. -/
theorem getLast?_closing (s : String) : (s ++ "*/\n").toList.getLast? = some '\n' := by
  simp

/-! ## Definitions in a comment -/

/-- A block comment defines what its lines after the first define. -/
theorem definitions_comment (comment : String) :
    definitions ("/*" ++ comment ++ "*/\n") = definitions (afterFirstLine (comment ++ "*/\n")) := by
  have hfeed : '\n' ∈ ("/*" ++ comment ++ "*/\n").toList := by simp
  have hopening : ("/*" ++ comment ++ "*/\n").toList =
    '/' :: '*' :: (comment ++ "*/\n").toList := by simp
  have hlines : Text.lines ("/*" ++ comment ++ "*/\n").toList =
      Text.dropReturn ('/' :: '*' :: (comment ++ "*/\n").toList.takeWhile (· != '\n')) ::
        Text.lines (afterFirstLine (comment ++ "*/\n")).toList := by
    rw [Text.lines_of_mem hfeed, hopening]
    simp [afterFirstLine]
  obtain ⟨kept, hkept⟩ := dropReturn_opener ((comment ++ "*/\n").toList.takeWhile (· != '\n'))
  rw [definitions, hlines, hkept, List.filterMap_cons_none (definition?_opener kept), definitions]

/-- A comment on one line has no further lines. -/
theorem afterFirstLine_of_notMem {comment : String} (h : '\n' ∉ comment.toList) :
    afterFirstLine (comment ++ "*/\n") = "" := by
  have hpass : ∀ c ∈ comment.toList, (c != '\n') = true := fun c hc => bne_iff_ne.mpr fun hsame =>
    h (hsame ▸ hc)
  rw [afterFirstLine, String.toList_append, List.dropWhile_append_of_pos hpass]
  rfl

variable {before : String}

/-- The definitions of a header with a comment, from its parts. -/
theorem find?_comment (hclosed : IsClosed before) (comment after name : String) :
    (definitions (before ++ ("/*" ++ comment ++ "*/\n") ++ after)).find? name =
      ((definitions after).find? name).or
        (((definitions (afterFirstLine (comment ++ "*/\n"))).find? name).or
            ((definitions before).find? name)) := by
  have hcomment : IsClosed ("/*" ++ comment ++ "*/\n") :=
    Or.inr (getLast?_closing ("/*" ++ comment))
  rw [String.append_assoc, find?_definitions_append hclosed, find?_definitions_append hcomment,
    definitions_comment, Option.or_assoc]

/-- The definitions of a header with an empty line in place of the comment. -/
theorem find?_emptyLine (hclosed : IsClosed before) (after name : String) :
    (definitions (before ++ "\n" ++ after)).find? name =
      ((definitions after).find? name).or ((definitions before).find? name) := by
  have hempty : IsClosed "\n" := Or.inr rfl
  have hnone : (definitions "\n").find? name = none := rfl
  rw [String.append_assoc, find?_definitions_append hclosed, find?_definitions_append hempty, hnone,
    Option.or_none]

end Header

open Header

/-- **When a block comment has no effect.** A header with a comment defines what it defines with the
lines of the comment after its first in place of the comment.  So a comment on one line has no
effect, and any other one has none exactly if each name that it defines is defined again behind it
or was last defined the same before it. -/
theorem comment_without_effect_iff {before : String} (hclosed : IsClosed before)
    (comment after : String) :
    definitions (before ++ ("/*" ++ comment ++ "*/\n") ++ after) =
        definitions (before ++ afterFirstLine (comment ++ "*/\n") ++ after) ∧
      ('\n' ∉ comment.toList →
        definitions (before ++ ("/*" ++ comment ++ "*/\n") ++ after) =
          definitions (before ++ "\n" ++ after)) ∧
      (definitions (before ++ ("/*" ++ comment ++ "*/\n") ++ after) =
        definitions (before ++ "\n" ++ after) ↔
        ∀ name value, Defines (afterFirstLine (comment ++ "*/\n")) name value →
          (∃ later, Defines after name later) ∨ Defines before name value) := by
  refine ⟨?_, ?_, ?_⟩
  · have hrest : IsClosed (afterFirstLine (comment ++ "*/\n")) :=
      isClosed_afterFirstLine (getLast?_closing comment)
    rw [definitions_eq_iff]
    intro name
    rw [find?_comment hclosed, String.append_assoc, find?_definitions_append hclosed,
      find?_definitions_append hrest, Option.or_assoc]
  · intro hline
    rw [definitions_eq_iff]
    intro name
    rw [find?_comment hclosed, afterFirstLine_of_notMem hline, find?_emptyLine hclosed]
    rfl
  · rw [definitions_eq_iff]
    simp only [find?_comment hclosed, find?_emptyLine hclosed, ← find?_definitions_eq_some_iff]
    refine forall_congr' fun name => ?_
    -- a name that is defined behind the comment settles both sides
    cases (definitions after).find? name with
    | some later => simp
    | none =>
      cases (definitions (afterFirstLine (comment ++ "*/\n"))).find? name with
      | none => simp
      | some value => simp [eq_comm]

/-- A comment has no effect that defines one name as before it and another one that is defined again
behind it. -/
theorem outdated_comment_without_effect :
    IsClosed "#define A 1\n" ∧
      definitions ("#define A 1\n" ++ ("/*" ++ " old:\n#define A 1 //\n#define B 2" ++ "*/\n") ++
        "#define B 3\n") =
        definitions ("#define A 1\n" ++ "\n" ++ "#define B 3\n") ∧
      Defines (afterFirstLine (" old:\n#define A 1 //\n#define B 2" ++ "*/\n")) "B" "2*/" ∧
      ((∃ later, Defines "#define B 3\n" "B" later) ∨ Defines "#define A 1\n" "B" "2*/") := by
  have hclosed : IsClosed "#define A 1\n" := Or.inr rfl
  have hsame :
    definitions ("#define A 1\n" ++ ("/*" ++ " old:\n#define A 1 //\n#define B 2" ++ "*/\n") ++
      "#define B 3\n") =
      definitions ("#define A 1\n" ++ "\n" ++ "#define B 3\n") := by decide +kernel
  have hcomment :
      Defines (afterFirstLine (" old:\n#define A 1 //\n#define B 2" ++ "*/\n")) "B" "2*/" :=
    find?_definitions_eq_some_iff.mp (by decide +kernel)
  exact ⟨hclosed, hsame, hcomment, (comment_without_effect_iff hclosed _ _).2.2.mp hsame "B"
    "2*/" hcomment⟩

/-- A definition on an inner line of a block comment takes the place of the definition before the
comment. -/
theorem definition_in_comment_counts :
    IsClosed "#define A 1\n" ∧ ¬ "//".toList <:+: "#define A 1\n".toList ∧
      ¬ "/*".toList <:+: "#define A 1\n".toList ∧
      '\\' ∉ "#define A 1\n".toList ∧ ¬ "*/".toList <:+: "\n#define A 2\n".toList ∧
      definitions ("#define A 1\n" ++ ("/*" ++ "\n#define A 2\n" ++ "*/\n") ++ "") =
        ⟨[("A", "2")]⟩ ∧
      definitions ("#define A 1\n" ++ "\n" ++ "") = ⟨[("A", "1")]⟩ := by
  have hclosed : IsClosed "#define A 1\n" := Or.inr rfl
  exact ⟨hclosed, by
    decide +kernel, by
      decide +kernel, by simp, by decide +kernel, by decide +kernel, by decide +kernel⟩

end Bindery
