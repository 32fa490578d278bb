/-
# Bindery.Proofs.Header.Continuations -- what continued lines do to the definitions of a header.

A line that ends with a backslash goes on in the next line, so it is no definition on a line of its
own, and it is passed over.  But nothing is carried to the line that continues it, which is read
like any other.  So a directive of two lines defines nothing only if its second line is no
definition in form; where it is one, it counts unless the header defines the name again behind it.
-/
import Bindery.Proofs.Header.Definitions
import Bindery.Proofs.Text.Blank

namespace Bindery

namespace Header

/-! ## Lines that go on -/

/-- **`IsContinued l`** -- the line ends with a backslash, and no comment opens on it. -/
structure IsContinued (l : String) : Prop where
  line : '\n' ∉ l.toList
  backslash : l.toList.getLast? = some '\\'
  lineComment : ¬ "//".toList <:+: l.toList
  blockComment : ¬ "/*".toList <:+: l.toList

/-- A line that goes on defines nothing. -/
theorem IsContinued.definition? {l : String} (h : IsContinued l) :
    Header.definition? (Text.dropReturn l.toList) = none := by
  have hkept : Text.dropReturn l.toList = l.toList := by
    rw [Text.dropReturn, h.backslash, if_neg (by decide)]
  have hlast : (Text.trim l.toList).getLast? = some '\\' :=
    Text.getLast?_trim h.backslash (by decide)
  rw [hkept, Header.definition?, beforeComment_eq_self h.lineComment h.blockComment]
  split
  · rw [if_pos hlast]
  · rfl

end Header

open Header

/-- **When a continued line and its continuation define nothing.** A header that starts with a
continued line defines what it defines without that line, whatever line follows.  So the two lines
together define nothing exactly if what the second one defines by itself, if anything, is defined
again behind it. -/
theorem continuation_without_effect_iff {continued continuation : String}
    (hcontinued : IsContinued continued)
    (hline : '\n' ∉ continuation.toList) (rest : String) :
    definitions (continued ++ "\n" ++ continuation ++ "\n" ++ rest) =
      definitions (continuation ++ "\n" ++ rest) ∧
      (definitions (continued ++ "\n" ++ continuation ++ "\n" ++ rest) = definitions rest ↔
        ∀ name value, definition? (Text.dropReturn continuation.toList) = some (name, value) →
          ∃ later, Defines rest name later) := by
  have hassoc : continued ++ "\n" ++ continuation ++ "\n" ++ rest = continued ++ "\n" ++
      (continuation ++ "\n" ++ rest) := by
    simp only [String.append_assoc]
  have hfirst : definitions (continued ++ "\n" ++ continuation ++ "\n" ++ rest) =
      definitions (continuation ++ "\n" ++ rest) := by
    rw [hassoc, definitions_eq_iff]
    intro name
    rw [find?_definitions_line_append hcontinued.line, hcontinued.definition?, Option.toList_none,
      List.lookup_nil, Option.or_none]
  refine ⟨hfirst, ?_⟩
  rw [hfirst, definitions_eq_iff]
  simp only [find?_definitions_line_append
    hline, ← find?_definitions_eq_some_iff, ← Option.isSome_iff_exists]
  cases definition? (Text.dropReturn continuation.toList) with
  | none => simp
  | some pair =>
    obtain ⟨defined, value⟩ := pair
    rw [Option.toList_some]
    constructor
    · rintro hsame _ _ ⟨⟩
      -- what the continuation defines is found anyway, so it must be found behind it
      rw [← hsame defined, List.lookup_cons_self, Option.or_some]
      rfl
    · intro hlater name
      by_cases hname : name = defined
      · subst hname
        exact Option.or_of_isSome (hlater name value rfl)
      · rw [List.lookup_cons, beq_eq_false_iff_ne.mpr hname, List.lookup_nil, Option.or_none]

/-- A continuation that looks like a definition has no effect where the name is defined again behind
it. -/
theorem redefined_continuation_without_effect :
    IsContinued "#define OLD \\" ∧ definition? (Text.dropReturn "#define A 1".toList) =
      some ("A", "1") ∧
      Defines "# define A 2\n" "A" "2" ∧
      definitions ("#define OLD \\" ++ "\n" ++ "#define A 1" ++ "\n" ++ "# define A 2\n") =
          definitions "# define A 2\n" := by
  have hcontinued : IsContinued "#define OLD \\" :=
    ⟨by decide, by decide, by decide +kernel, by decide +kernel⟩
  have hdefined : definition? (Text.dropReturn "#define A 1".toList) =
    some ("A", "1") := by decide +kernel
  have hlater : Defines "# define A 2\n" "A" "2" :=
    find?_definitions_eq_some_iff.mp (by decide +kernel)
  refine ⟨hcontinued, hdefined, hlater,
    (continuation_without_effect_iff hcontinued (by decide) _).2.mpr ?_⟩
  rintro name value hsame
  rw [hdefined] at hsame
  cases hsame
  exact ⟨"2", hlater⟩

/-- A continuation that looks like a definition adds a name that nothing else defines. -/
theorem definition_in_continuation_counts :
    IsContinued "#define OLD \\" ∧ '\n' ∉ "#define A 1".toList ∧
      "#define A 1".toList.getLast? ≠ some '\\' ∧
      ¬ "//".toList <:+: "#define A 1".toList ∧ ¬ "/*".toList <:+: "#define A 1".toList ∧
      definitions ("#define OLD \\" ++ "\n" ++ "#define A 1" ++ "\n" ++ "#define B 2\n") =
        ⟨[("A", "1"), ("B", "2")]⟩ ∧
      definitions "#define B 2\n" = ⟨[("B", "2")]⟩ :=
  ⟨⟨by decide, by decide, by decide +kernel, by decide +kernel⟩, by
    decide, by decide, by decide +kernel, by decide +kernel, by decide +kernel, by decide +kernel⟩

end Bindery
