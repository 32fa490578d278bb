/-
# Bindery.Proofs.Files.Programs -- how programs compose.

What matters of a run is how it ends: with a result and a tree.  A program that is made of two parts
ends well when both parts do, and fails when one of them does; so a command is followed from its
last step back to its first.  Separately, what a program may do is bounded: by a relation between
the trees before and after, and by a kind of failures.  A whole stays within the bounds when each
step does, because the relation can be chained.
-/
import Bindery.Files.Program
import Bindery.Proofs.Files.Locations

namespace Bindery.Program

variable {ε δ α β : Type} {t after : FileTree} {result : Except ε α}

/-! ## How programs end -/

/-- **`p.Ends t result after`** -- carried out on a tree, a program ends with a result and leaves a
tree. -/
def Ends (p : Program ε α) (t : FileTree) (result : Except ε α) (after : FileTree) : Prop :=
  (p.run t).result = result ∧ (p.run t).tree = after

/-- Every program ends in one way. -/
theorem ends_run (p : Program ε α) (t : FileTree) : p.Ends t (p.run t).result (p.run t).tree :=
  ⟨rfl, rfl⟩

theorem Ends.unique {p : Program ε α} {other : Except ε α} {left : FileTree}
    (h : p.Ends t result after) (h' : p.Ends t other left) :
    result = other ∧ after = left :=
  ⟨h.1.symm.trans h'.1, h.2.symm.trans h'.2⟩

theorem bind_ends_ok_iff {p : Program ε α} {k : α → Program ε β} {b : β} :
    (p >>= k).Ends t (.ok b) after ↔ ∃ a middle, p.Ends t (.ok a) middle ∧
        (k a).Ends middle (.ok b) after := by
  simp only [Ends, run_bind, Outcome.andThen]
  cases hresult : (p.run t).result with
  | error e => simp
  | ok a => simp

theorem bind_ends_error_iff {p : Program ε α} {k : α → Program ε β} {e : ε} :
    (p >>= k).Ends t (.error e) after ↔
      p.Ends t (.error e) after ∨ ∃ a middle, p.Ends t (.ok a) middle ∧
          (k a).Ends middle (.error e) after := by
  simp only [Ends, run_bind, Outcome.andThen]
  cases hresult : (p.run t).result with
  | error e => simp
  | ok a => simp

/-- However a program ends that is made of two parts, the first one fails or both come to an end. -/
theorem bind_ends_cases {p : Program ε α} {k : α → Program ε β} {result : Except ε β}
    (h : (p >>= k).Ends t result after) :
    (∃ e, p.Ends t (.error e) after ∧ result = .error e) ∨ ∃ a middle, p.Ends t (.ok a) middle ∧
        (k a).Ends middle result after := by
  cases result with
  | ok b => exact Or.inr (bind_ends_ok_iff.mp h)
  | error e =>
    rcases bind_ends_error_iff.mp h with hfirst | hsecond
    · exact Or.inl ⟨e, hfirst, rfl⟩
    · exact Or.inr hsecond

/-- Behind a part that is known to end well, a program ends as its other part does. -/
theorem bind_ends_iff_of_ok {p : Program ε α} {k : α → Program ε β} {a : α} {middle : FileTree}
    {result : Except ε β}
    (h : p.Ends t (.ok a) middle) :
    (p >>= k).Ends t result after ↔ (k a).Ends middle result after := by
  obtain ⟨hresult, rfl⟩ := h
  simp only [Ends, run_bind, Outcome.andThen, hresult]

/-- A program fails as its first part is known to fail. -/
theorem bind_ends_iff_of_error {p : Program ε α} {k : α → Program ε β} {e : ε} {left : FileTree}
    {result : Except ε β}
    (h : p.Ends t (.error e) left) : (p >>= k).Ends t result after ↔ result = .error e ∧
        after = left := by
  obtain ⟨hresult, rfl⟩ := h
  simp only [Ends, run_bind, Outcome.andThen, hresult, eq_comm]

/-! ## Steps -/

/-- How a program ends that leaves the tree as it is. -/
theorem ends_iff {p : Program ε α} {given : Except ε α} (hresult : (p.run t).result = given)
    (htree : (p.run t).tree = t) :
    p.Ends t result after ↔ result = given ∧ after = t := by
  rw [Ends, hresult, htree, eq_comm, @eq_comm _ t]

theorem pure_ends_iff {a : α} :
    (pure a : Program ε α).Ends t result after ↔ result = .ok a ∧ after = t :=
  ends_iff rfl rfl

theorem fail_ends_iff {e : ε} :
    (fail e : Program ε α).Ends t result after ↔ result = .error e ∧ after = t :=
  ends_iff rfl rfl

theorem kindOf_ends_iff {p : Path} {result : Except ε (Option FileKind)} :
    (kindOf p).Ends t result after ↔ result = .ok (t.kind? p) ∧ after = t :=
  ends_iff rfl rfl

theorem readText_ends_iff {p : Path} {result : Except ε (Except FileError String)} :
    (readText p).Ends t result after ↔ result = .ok (t.read p) ∧ after = t :=
  ends_iff rfl rfl

theorem report_ends_iff {level : LogLevel} {text : String} {result : Except ε Unit} :
    (report level text).Ends t result after ↔ result = .ok () ∧ after = t :=
  ends_iff rfl rfl

theorem say_ends_iff {text : String} {result : Except ε Unit} :
    (say text).Ends t result after ↔ result = .ok () ∧ after = t :=
  ends_iff rfl rfl

theorem reportAll_ends_iff {entries : List LogEntry} {result : Except ε Unit} :
    (reportAll entries).Ends t result after ↔ result = .ok () ∧ after = t := by
  induction entries with
  | nil => exact pure_ends_iff
  | cons entry rest ih => exact ih

theorem orFail_ends_iff {failure : δ → ε} {x : Except δ α} :
    (orFail failure x).Ends t result after ↔ result = x.mapError failure ∧ after = t := by
  cases x with
  | ok a => exact pure_ends_iff
  | error d => exact fail_ends_iff

theorem orFail_ends_ok_iff {failure : δ → ε} {x : Except δ α} {a : α} :
    (orFail failure x).Ends t (.ok a) after ↔ x = .ok a ∧ after = t := by
  rw [orFail_ends_iff, eq_comm, mapError_eq_ok_iff]

/-- A write that succeeds leaves the tree that writing gives. -/
theorem writeText_ends_ok_iff {p : Path} {text : String} :
    (writeText p text : Program ε (Except FileError Unit)).Ends t (.ok (.ok ())) after ↔
        t.write p text.toUTF8 = .ok after := by
  simp only [Ends, writeText, run]
  cases t.write p text.toUTF8 <;> simp [answer]

/-- Going on with the text of a file, where anything else is a failure. -/
theorem readText_orFail_ends_ok_iff {p : Path} {failure : FileError → ε}
    {k : String → Program ε β} {b : β} :
    (readText p >>= fun answer => orFail failure answer >>= k).Ends t (.ok b) after ↔
      ∃ text, t.read p = .ok text ∧ (k text).Ends t (.ok b) after := by
  simp only [bind_ends_ok_iff, readText_ends_iff, orFail_ends_ok_iff]
  constructor
  · rintro ⟨answer, _, ⟨hanswer, rfl⟩, text, _, ⟨rfl, rfl⟩, h⟩
    exact ⟨text, (Except.ok.inj hanswer).symm, h⟩
  · rintro ⟨text, hread, h⟩
    exact ⟨.ok text, t, ⟨by rw [hread], rfl⟩, text, t, ⟨rfl, rfl⟩, h⟩

/-! ## What programs may do -/

/-- **`p.Within R P`** -- however a run of the program ends, the trees before and after it stand in
a relation, and a failure is of some kind. -/
structure Within (p : Program ε α) (R : FileTree → FileTree → Prop) (P : ε → Prop) : Prop where
  trees : ∀ t, R t (p.run t).tree
  failures : ∀ t e, (p.run t).result = .error e → P e

/-- The program leaves every tree as it is. -/
abbrev ReadOnly (p : Program ε α) : Prop :=
  p.Within Eq fun _ => True

section Within

variable {R S : FileTree → FileTree → Prop} {P Q : ε → Prop}

theorem Within.tree_of_ends {p : Program ε α} (h : p.Within R P) (hends : p.Ends t result after) :
    R t after :=
  hends.2 ▸ h.trees t

theorem Within.failure_of_ends {p : Program ε α} {e : ε} (h : p.Within R P)
    (hends : p.Ends t (.error e) after) : P e :=
  h.failures t e hends.1

theorem Within.mono {p : Program ε α} (h : p.Within R P)
    (htrees : ∀ {before after}, R before after → S before after)
    (hfailures : ∀ {e}, P e → Q e) : p.Within S Q :=
  ⟨fun t => htrees (h.trees t), fun t e he => hfailures (h.failures t e he)⟩

variable [IsPreorder FileTree R]

/-- A program stays within what each of its parts stays within. -/
theorem Within.bind {p : Program ε α} {k : α → Program ε β} (hp : p.Within R P)
    (hk : ∀ a, (k a).Within R P) :
    (p >>= k).Within R P := by
  refine ⟨?_, ?_⟩
  · intro t
    rw [run_bind, Outcome.andThen]
    split
    · exact hp.trees t
    · rename_i a _
      exact trans_of R (hp.trees t) ((hk a).trees _)
  · intro t e h
    rcases bind_ends_error_iff.mp ⟨h, rfl⟩ with hends | ⟨a, middle, -, hends⟩
    · exact hp.failure_of_ends hends
    · exact (hk a).failure_of_ends hends

/-- A program that changes nothing and does not fail stays within everything. -/
theorem within_of_ok {p : Program ε α} (h : ∀ t, ∃ a, p.Ends t (.ok a) t) : p.Within R P := by
  refine ⟨?_, ?_⟩
  · intro t
    obtain ⟨a, -, htree⟩ := h t
    rw [htree]
    exact refl_of R t
  · intro t e he
    obtain ⟨a, hresult, -⟩ := h t
    rw [hresult] at he
    cases he

theorem pure_within (a : α) : (pure a : Program ε α).Within R P :=
  within_of_ok fun _ => ⟨a, rfl, rfl⟩

theorem kindOf_within (p : Path) : (kindOf p).Within R P :=
  within_of_ok fun t => ⟨t.kind? p, rfl, rfl⟩

theorem readText_within (p : Path) : (readText p).Within R P :=
  within_of_ok fun t => ⟨t.read p, rfl, rfl⟩

theorem report_within (level : LogLevel) (text : String) : (report level text).Within R P :=
  within_of_ok fun _ => ⟨(), rfl, rfl⟩

theorem reportAll_within (entries : List LogEntry) : (reportAll entries).Within R P :=
  within_of_ok fun _ => ⟨(), reportAll_ends_iff.mpr ⟨rfl, rfl⟩⟩

theorem say_within (text : String) : (say text).Within R P :=
  within_of_ok fun _ => ⟨(), rfl, rfl⟩

theorem fail_within {e : ε} (h : P e) : (fail e : Program ε α).Within R P := by
  refine ⟨fun t => refl_of R t, ?_⟩
  intro t d hd
  cases hd
  exact h

theorem orFail_within {failure : δ → ε} (x : Except δ α) (h : ∀ d, P (failure d)) :
    (orFail failure x).Within R P := by
  cases x with
  | ok a => exact pure_within a
  | error d => exact fail_within (h d)

end Within

/-! ## Making directories -/

section MakingDirectories

variable {P : ε → Prop}

theorem makeOne_within (p : Path) : (makeOne p).Within FileTree.KeepsFiles P := by
  refine ⟨?_, ?_⟩
  · intro t
    simp only [makeOne, run]
    cases hmade : t.makeDirectory p with
    | ok after => exact FileTree.makeDirectory_effect hmade
    | error e => exact .refl t
  · intro t e he
    cases he

theorem settle_within (p : Path) (made : Except FileError Unit) :
    (makeChain.settle p made).Within FileTree.KeepsFiles P := by
  cases made with
  | ok _ => exact pure_within _
  | error e =>
    refine (kindOf_within p).bind ?_
    intro kind
    split
    · exact pure_within _
    · exact pure_within _

/-- **Making directories changes no file**, and it gives an answer also where it cannot be done. -/
theorem makeChain_within (p : Path) (above : List (List String)) :
    (makeChain p above).Within FileTree.KeepsFiles P := by
  induction above generalizing p with
  | nil =>
    rw [makeChain]
    refine (makeOne_within p).bind ?_
    intro made
    split
    · exact pure_within _
    · exact pure_within _
    · exact settle_within p _
  | cons segments rest ih =>
    rw [makeChain]
    refine (makeOne_within p).bind ?_
    intro made
    split
    · exact pure_within _
    · refine (ih _).bind ?_
      intro outer
      split
      · exact pure_within _
      · exact (makeOne_within p).bind (settle_within p)
    · exact settle_within p _

theorem makeDirectories_within (p : Path) : (makeDirectories p).Within FileTree.KeepsFiles P :=
  makeChain_within p _

end MakingDirectories

/-! ## Writing -/

theorem writeText_within {P : ε → Prop} (p : Path) (text : String) :
    (writeText p text).Within FileTree.Grows P := by
  refine ⟨?_, ?_⟩
  · intro t
    simp only [writeText, run]
    cases hwritten : t.write p text.toUTF8 with
    | ok after => exact (FileTree.write_effect hwritten).2.1
    | error e => exact .refl t
  · intro t e he
    cases he

end Bindery.Program
