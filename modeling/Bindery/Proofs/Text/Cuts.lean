/-
# Bindery.Proofs.Text.Cuts -- where written things end.

Source is written by putting texts side by side, and it tells what was written only if one can see
where each text ends.  A way of writing cuts off if what it writes can be taken off the front of any
text in one way, and it cuts at some marks if it does where a mark follows.  Lists inherit this from
their members: one that is closed by a mark with which no member starts cuts off itself.
-/
import Mathlib.Data.List.Basic

namespace Bindery.Text

variable {α : Type}

/-! ## Cutting -/

/-- Two texts that are cut at the first stop have the same parts. -/
theorem append_stop_inj (stop : α → Prop) {first first' rest rest' : List α} {x x' : α}
    (h : first ++ x :: rest = first' ++ x' :: rest') (hx : stop x) (hx' : stop x')
    (hfirst : ∀ c ∈ first, ¬ stop c)
    (hfirst' : ∀ c ∈ first', ¬ stop c) : first = first' ∧ x = x' ∧ rest = rest' := by
  induction first generalizing first' with
  | nil =>
    cases first' with
    | nil => exact ⟨rfl, List.cons.inj h⟩
    | cons c first' => exact absurd ((List.cons.inj h).1 ▸ hx) (hfirst' c List.mem_cons_self)
  | cons c first ih =>
    cases first' with
    | nil => exact absurd ((List.cons.inj h).1 ▸ hx') (hfirst c List.mem_cons_self)
    | cons c' first' =>
      obtain ⟨rfl, htail⟩ := List.cons.inj h
      rw [List.forall_mem_cons] at hfirst hfirst'
      obtain ⟨rfl, hmark, hrest⟩ := ih htail hfirst.2 hfirst'.2
      exact ⟨rfl, hmark, hrest⟩

/-- Two texts that are cut at the first separator have the same parts. -/
theorem append_separator_inj {sep : α} {first first' rest rest' : List α}
    (h : first ++ sep :: rest = first' ++ sep :: rest')
    (hfirst : sep ∉ first) (hfirst' : sep ∉ first') : first = first' ∧ rest = rest' := by
  have hstops : ∀ {part : List α}, sep ∉ part → ∀ c ∈ part, ¬ c = sep :=
    fun hpart c hc hsame => hpart (hsame ▸ hc)
  obtain ⟨hsame, -, hrest⟩ :=
    append_stop_inj (fun c => c = sep) h rfl rfl (hstops hfirst) (hstops hfirst')
  exact ⟨hsame, hrest⟩

/-- **`CutsOff P write`** -- what is written for a member of the class can be taken off the front of
a text in one way. -/
def CutsOff (P : α → Prop) (write : α → List Char) : Prop :=
  ∀ ⦃a a' : α⦄ ⦃rest rest' : List Char⦄, P a → P a' → write a ++ rest = write a' ++ rest' →
    a = a' ∧ rest = rest'

/-- **`CutsAt P write mark`** -- what is written for a member of the class can be taken off the
front of a text in one way if a mark follows it. -/
def CutsAt (P : α → Prop) (write : α → List Char) (mark : Char → Prop) : Prop :=
  ∀ ⦃a a' : α⦄ ⦃x x' : Char⦄ ⦃rest rest' : List Char⦄, P a → P a' → mark x → mark x' →
    write a ++ x :: rest = write a' ++ x' :: rest' → a = a' ∧ x = x' ∧ rest = rest'

/-- **`OpensApart P write c`** -- what is written for a member of the class starts with another
character than `c`. -/
def OpensApart (P : α → Prop) (write : α → List Char) (c : Char) : Prop :=
  ∀ a, P a → ∃ first rest, write a = first :: rest ∧ first ≠ c

variable {P : α → Prop} {write : α → List Char}

theorem CutsOff.cutsAt (h : CutsOff P write) (mark : Char → Prop) : CutsAt P write mark := by
  intro a a' x x' rest rest' ha ha' _ _ hsame
  obtain ⟨rfl, hrest⟩ := h ha ha' hsame
  exact ⟨rfl, List.cons.inj hrest⟩

/-! ## Lists -/

/-- A list whose members stand side by side, closed by a mark. -/
def closedBy (write : α → List Char) (closing : Char) (as : List α) : List Char :=
  as.flatMap write ++ [closing]

/-- A list with a mark and a fixed text between its members, closed by a mark. -/
def separatedBy (write : α → List Char) (between : Char) (pad : List Char) (closing : Char)
    (as : List α) : List Char :=
  (between :: pad).intercalate (as.map write) ++ [closing]

theorem closedBy_cons {closing : Char} (a : α) (as : List α) :
    closedBy write closing (a :: as) = write a ++ closedBy write closing as := by
  simp [closedBy]

section Separated

variable {between closing : Char} {pad : List Char}

theorem separatedBy_singleton (a : α) :
    separatedBy write between pad closing [a] = write a ++ [closing] := by
  simp [separatedBy]

theorem separatedBy_cons_cons (a b : α) (bs : List α) :
    separatedBy write between pad closing (a :: b :: bs) =
      write a ++ between :: (pad ++ separatedBy write between pad closing (b :: bs)) := by
  simp [separatedBy]

end Separated

/-- A list whose members cut off and which is closed by a mark with which no member starts. -/
theorem CutsOff.closedBy {closing : Char} (h : CutsOff P write)
    (hopens : OpensApart P write closing) :
    CutsOff (fun as => ∀ a ∈ as, P a) (closedBy write closing) := by
  -- where one list ends and the other goes on, a member starts with the closing mark
  have hends : ∀ {a : α} {as : List α} {rest rest' : List Char}, P a →
      Text.closedBy write closing [] ++ rest ≠ Text.closedBy write closing (a :: as) ++ rest' := by
    intro a as rest rest' ha hsame
    obtain ⟨first, others, hwrite, hne⟩ := hopens a ha
    rw [closedBy_cons, hwrite] at hsame
    exact hne (List.cons.inj hsame).1.symm
  intro as
  induction as with
  | nil =>
    intro as' rest rest' _ has' hsame
    cases as' with
    | nil => exact ⟨rfl, (List.cons.inj hsame).2⟩
    | cons a' as' => exact absurd hsame (hends (has' a' List.mem_cons_self))
  | cons a as ih =>
    intro as' rest rest' has has' hsame
    cases as' with
    | nil => exact absurd hsame.symm (hends (has a List.mem_cons_self))
    | cons a' as' =>
      rw [List.forall_mem_cons] at has has'
      rw [closedBy_cons, closedBy_cons, List.append_assoc, List.append_assoc] at hsame
      obtain ⟨rfl, htail⟩ := h has.1 has'.1 hsame
      obtain ⟨rfl, hrest⟩ := ih has.2 has'.2 htail
      exact ⟨rfl, hrest⟩

/-- A list whose members cut at the mark between them and at the mark that closes the list, with
which no member starts. -/
theorem CutsAt.separatedBy {between closing : Char} {pad : List Char}
    (h : CutsAt P write fun c => c = between ∨ c = closing)
    (hopens : OpensApart P write closing) (hmarks : between ≠ closing) :
    CutsOff (fun as => ∀ a ∈ as, P a) (separatedBy write between pad closing) := by
  have hends : ∀ {a : α} {as : List α} {rest rest' : List Char}, P a →
      Text.separatedBy write between pad closing [] ++ rest ≠ Text.separatedBy write between pad
          closing (a :: as) ++ rest' := by
    intro a as rest rest' ha hsame
    obtain ⟨first, others, hwrite, hne⟩ := hopens a ha
    simp only [Text.separatedBy, List.map_cons, hwrite, List.intercalate_cons_cons_left] at hsame
    exact hne (List.cons.inj hsame).1.symm
  intro as
  induction as with
  | nil =>
    intro as' rest rest' _ has' hsame
    cases as' with
    | nil => exact ⟨rfl, (List.cons.inj hsame).2⟩
    | cons a' as' => exact absurd hsame (hends (has' a' List.mem_cons_self))
  | cons a as ih =>
    intro as' rest rest' has has' hsame
    cases as' with
    | nil => exact absurd hsame.symm (hends (has a List.mem_cons_self))
    | cons a' as' =>
      rw [List.forall_mem_cons] at has has'
      -- the mark behind the first member tells whether there are further ones
      rcases as with _ | ⟨b, bs⟩ <;> rcases as' with _ | ⟨b', bs'⟩ <;>
        simp only [separatedBy_singleton, separatedBy_cons_cons, List.append_assoc,
          List.cons_append, List.nil_append] at hsame
      · obtain ⟨rfl, -, hrest⟩ := h has.1 has'.1 (Or.inr rfl) (Or.inr rfl) hsame
        exact ⟨rfl, hrest⟩
      · obtain ⟨-, hmark, -⟩ := h has.1 has'.1 (Or.inr rfl) (Or.inl rfl) hsame
        exact absurd hmark.symm hmarks
      · obtain ⟨-, hmark, -⟩ := h has.1 has'.1 (Or.inl rfl) (Or.inr rfl) hsame
        exact absurd hmark hmarks
      · obtain ⟨rfl, -, htail⟩ := h has.1 has'.1 (Or.inl rfl) (Or.inl rfl) hsame
        obtain ⟨hothers, hrest⟩ := ih has.2 has'.2 (List.append_cancel_left htail)
        exact ⟨by rw [hothers], hrest⟩

end Bindery.Text
