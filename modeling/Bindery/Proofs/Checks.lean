/-
# Bindery.Proofs.Checks -- how checks compose.

Catalogs, wrappings and units are checked by steps that succeed with a value or fail with a cause.
A composed check succeeds exactly when each of its steps does, and a list of checks fails exactly
with the cause of its first failing member.  A check with early exits is first brought into the form
of a chain of the two leaves `need` and `reject`; then the laws take it apart.
-/
import Mathlib.Data.List.Forall2

namespace Bindery

variable {ε δ α β : Type}

/-- Checks with comparable values and causes are comparable. -/
instance decidableEqCheck [DecidableEq ε] [DecidableEq α] : DecidableEq (Except ε α)
  | .ok a, .ok b => decidable_of_iff (a = b) (by rw [Except.ok.injEq])
  | .error d, .error e => decidable_of_iff (d = e) (by rw [Except.error.injEq])
  | .ok _, .error _ => isFalse (by intro h; cases h)
  | .error _, .ok _ => isFalse (by intro h; cases h)

/-! ## Two steps -/

theorem bind_eq_ok_iff {x : Except ε α} {g : α → Except ε β} {b : β} :
    x >>= g = .ok b ↔ ∃ a, x = .ok a ∧ g a = .ok b := by
  cases x <;> simp [bind, Except.bind]

theorem bind_eq_error_iff {x : Except ε α} {g : α → Except ε β} {e : ε} :
    x >>= g = .error e ↔ x = .error e ∨ ∃ a, x = .ok a ∧ g a = .error e := by
  cases x <;> simp [bind, Except.bind]

theorem pure_eq_ok_iff {a b : α} : (pure a : Except ε α) = .ok b ↔ a = b := by
  simp [pure, Except.pure]

/-- A check that does not fail has a value. -/
theorem exists_eq_ok {x : Except ε α} (h : ∀ e, x ≠ .error e) : ∃ a, x = .ok a := by
  cases x with
  | error e => exact absurd rfl (h e)
  | ok a => exact ⟨a, rfl⟩

theorem pure_ne_error {a : α} {e : ε} : (pure a : Except ε α) ≠ .error e := by
  intro h
  cases h

/-! ## Leaves -/

/-- Asks for the value of an option. -/
def need (o : Option α) (e : ε) : Except ε α :=
  match o with
  | some a => .ok a
  | none => .error e

/-- Refuses a condition. -/
def reject (p : Prop) [Decidable p] (e : ε) : Except ε Unit :=
  if p then .error e else .ok ()

theorem need_eq_ok_iff {o : Option α} {e : ε} {a : α} : need o e = .ok a ↔ o = some a := by
  cases o <;> simp [need]

theorem need_eq_error_iff {o : Option α} {e d : ε} : need o e = .error d ↔ o = none ∧ e = d := by
  cases o <;> simp [need]

theorem reject_eq_ok_iff {p : Prop} [Decidable p] {e : ε} {u : Unit} :
    reject p e = .ok u ↔ ¬ p := by
  by_cases h : p <;> simp [reject, h]

theorem reject_eq_error_iff {p : Prop} [Decidable p] {e d : ε} :
    reject p e = .error d ↔ p ∧ e = d := by
  by_cases h : p <;> simp [reject, h]

/-! ## Renaming causes -/

theorem mapError_eq_ok_iff {x : Except ε α} {g : ε → δ} {a : α} :
    x.mapError g = .ok a ↔ x = .ok a := by
  cases x <;> simp [Except.mapError]

theorem mapError_eq_error_iff {x : Except ε α} {g : ε → δ} {d : δ} :
    x.mapError g = .error d ↔ ∃ e, x = .error e ∧ g e = d := by
  cases x <;> simp [Except.mapError]

/-! ## Lists of checks -/

/-- Members of lists that correspond have partners. -/
theorem exists_right_of_forall₂ {R : α → β → Prop} {xs : List α} {ys : List β}
    (h : List.Forall₂ R xs ys) {x : α}
    (hx : x ∈ xs) : ∃ y ∈ ys, R x y := by
  induction h with
  | nil => cases hx
  | @cons a b xs ys hab _ ih =>
    rcases List.mem_cons.mp hx with rfl | hx
    · exact ⟨b, List.mem_cons_self, hab⟩
    · obtain ⟨y, hy, hxy⟩ := ih hx
      exact ⟨y, List.mem_cons_of_mem b hy, hxy⟩

theorem exists_left_of_forall₂ {R : α → β → Prop} {xs : List α} {ys : List β}
    (h : List.Forall₂ R xs ys) {y : β}
    (hy : y ∈ ys) : ∃ x ∈ xs, R x y :=
  exists_right_of_forall₂ h.flip hy

/-- What corresponding members have in common is the same list of both. -/
theorem map_eq_map_of_forall₂ {γ : Type} {R : α → β → Prop} {f : α → γ} {g : β → γ}
    {xs : List α} {ys : List β}
    (h : List.Forall₂ R xs ys) (hcommon : ∀ x y, R x y → f x = g y) : xs.map f = ys.map g := by
  induction h with
  | nil => rfl
  | cons hhead _ ih => rw [List.map_cons, List.map_cons, hcommon _ _ hhead, ih]

/-- A list of checks succeeds exactly when every member does. -/
theorem mapM_eq_ok_iff {g : α → Except ε β} {xs : List α} {ys : List β} :
    xs.mapM g = .ok ys ↔ List.Forall₂ (fun x y => g x = .ok y) xs ys := by
  induction xs generalizing ys with
  | nil =>
    rw [List.mapM_nil, pure_eq_ok_iff, List.forall₂_nil_left_iff]
    exact eq_comm
  | cons x xs ih =>
    rw [List.mapM_cons, List.forall₂_cons_left_iff]
    simp only [bind_eq_ok_iff, pure_eq_ok_iff, ih]
    constructor
    · rintro ⟨y, hy, rest, hrest, rfl⟩
      exact ⟨y, rest, hy, hrest, rfl⟩
    · rintro ⟨y, rest, hy, hrest, rfl⟩
      exact ⟨y, hy, rest, hrest, rfl⟩

/-- A list of checks fails exactly with the cause of its first failing member. -/
theorem mapM_eq_error_iff {g : α → Except ε β} {xs : List α} {e : ε} :
    xs.mapM g = .error e ↔
      ∃ before x after, xs = before ++ x :: after ∧ (∀ y ∈ before, ∃ b, g y = .ok b) ∧
          g x = .error e := by
  induction xs with
  | nil =>
    rw [List.mapM_nil]
    constructor
    · intro h
      cases h
    · rintro ⟨before, x, after, h, -⟩
      cases before <;> cases h
  | cons x xs ih =>
    rw [List.mapM_cons, bind_eq_error_iff]
    simp only [bind_eq_error_iff, ih]
    constructor
    · rintro (hx | ⟨b, hb, ⟨before, y, after, rfl, hbefore, hy⟩ | ⟨_, _, h⟩⟩)
      · exact ⟨[], x, xs, rfl, by simp, hx⟩
      · refine ⟨x :: before, y, after, rfl, ?_, hy⟩
        intro z hz
        rcases List.mem_cons.mp hz with rfl | hz
        · exact ⟨b, hb⟩
        · exact hbefore z hz
      · cases h
    · rintro ⟨before, y, after, h, hbefore, hy⟩
      cases before with
      | nil =>
        obtain ⟨rfl, rfl⟩ := List.cons.inj h
        exact Or.inl hy
      | cons z before =>
        obtain ⟨rfl, rfl⟩ := List.cons.inj h
        obtain ⟨b, hb⟩ := hbefore x List.mem_cons_self
        refine Or.inr ⟨b, hb, Or.inl ⟨before, y, after, rfl, ?_, hy⟩⟩
        intro z hz
        exact hbefore z (List.mem_cons_of_mem x hz)

/-- A list of checks has values exactly when every member has one. -/
theorem exists_mapM_eq_ok_iff {g : α → Except ε β} {xs : List α} :
    (∃ ys, xs.mapM g = .ok ys) ↔ ∀ x ∈ xs, ∃ y, g x = .ok y := by
  constructor
  · rintro ⟨ys, h⟩ x hx
    obtain ⟨y, -, hy⟩ := exists_right_of_forall₂ (mapM_eq_ok_iff.mp h) hx
    exact ⟨y, hy⟩
  · intro hall
    apply exists_eq_ok
    intro e he
    obtain ⟨before, x, after, rfl, -, hx⟩ := mapM_eq_error_iff.mp he
    obtain ⟨y, hy⟩ := hall x (List.mem_append_right before List.mem_cons_self)
    rw [hx] at hy
    cases hy

/-! ## Lists with distinct keys -/

section Distinct

variable {key : α → String} {repeated : α → ε} {check : α → Except ε β} {seen : List String}
  {xs : List α} {ys : List β} {e : ε}

/-- **`checkDistinct key repeated check seen xs`** -- the members of a list are checked from first
to last, and one whose key has been seen is refused before it is checked itself; `seen` holds the
keys of the members before them. -/
def checkDistinct (key : α → String) (repeated : α → ε) (check : α → Except ε β) :
    List String → List α → Except ε (List β)
  | _, [] => return []
  | seen, x :: rest => do
    reject (key x ∈ seen) (repeated x)
    let y ← check x
    let ys ← checkDistinct key repeated check (key x :: seen) rest
    return y :: ys

/-- The check succeeds exactly when the keys are distinct and new, and every member passes. -/
theorem checkDistinct_eq_ok_iff :
    checkDistinct key repeated check seen xs = .ok ys ↔
      (xs.map key).Nodup ∧ (xs.map key).Disjoint seen ∧
          List.Forall₂ (fun x y => check x = .ok y) xs ys := by
  induction xs generalizing seen ys with
  | nil =>
    rw [checkDistinct, pure_eq_ok_iff, List.forall₂_nil_left_iff]
    simp [eq_comm]
  | cons x rest ih =>
    simp only [checkDistinct, bind_eq_ok_iff, reject_eq_ok_iff, pure_eq_ok_iff, ih, List.map_cons,
      List.nodup_cons, List.disjoint_cons_left, List.disjoint_cons_right,
      List.forall₂_cons_left_iff]
    constructor
    · rintro ⟨_, hseen, y, hy, others, ⟨hnodup, ⟨hnew, hdisjoint⟩, hothers⟩, rfl⟩
      exact ⟨⟨hnew, hnodup⟩, ⟨hseen, hdisjoint⟩, y, others, hy, hothers, rfl⟩
    · rintro ⟨⟨hnew, hnodup⟩, ⟨hseen, hdisjoint⟩, y, others, hy, hothers, rfl⟩
      exact ⟨(), hseen, y, hy, others, ⟨hnodup, ⟨hnew, hdisjoint⟩, hothers⟩, rfl⟩

/-- The check fails exactly over the first member whose key is taken or which does not pass. -/
theorem checkDistinct_eq_error_iff :
    checkDistinct key repeated check seen xs = .error e ↔
      ∃ before x after, xs = before ++ x :: after ∧
        ((before.map key).Nodup ∧ (before.map key).Disjoint seen) ∧
        (∀ y ∈ before, ∃ b, check y = .ok b) ∧
        ((key x ∈ before.map key ∨ key x ∈ seen) ∧ repeated x = e ∨
          ¬ (key x ∈ before.map key ∨ key x ∈ seen) ∧ check x = .error e) := by
  induction xs generalizing seen with
  | nil => simp [checkDistinct, pure_ne_error]
  | cons x rest ih =>
    simp only [checkDistinct, bind_eq_error_iff, reject_eq_error_iff, reject_eq_ok_iff,
      pure_ne_error, and_false, exists_false, or_false, ih]
    constructor
    · rintro (⟨hseen, rfl⟩ | ⟨_, hseen, hx | ⟨b, hb, before, y, after, rfl, ⟨hnodup, hdisjoint⟩,
        hbefore, hy⟩⟩)
      · exact ⟨[], x, rest, rfl, by simp, by simp, Or.inl ⟨Or.inr hseen, rfl⟩⟩
      · exact ⟨[], x, rest, rfl, by simp, by simp, Or.inr ⟨by simpa using hseen, hx⟩⟩
      · -- the key of the first member was seen by the later ones, so it is theirs to differ from
        rw [List.disjoint_cons_right] at hdisjoint
        refine ⟨x :: before, y, after, rfl, ?_, List.forall_mem_cons.mpr ⟨⟨b, hb⟩, hbefore⟩, ?_⟩
        · rw [List.map_cons, List.nodup_cons, List.disjoint_cons_left]
          exact ⟨⟨hdisjoint.1, hnodup⟩, hseen, hdisjoint.2⟩
        · simpa only [List.map_cons, List.mem_cons, or_assoc, or_left_comm] using hy
    · rintro ⟨before, y, after, hsplit, ⟨hnodup, hdisjoint⟩, hbefore, hy⟩
      cases before with
      | nil =>
        obtain ⟨rfl, rfl⟩ := List.cons.inj hsplit
        simp only [List.map_nil, List.not_mem_nil, false_or] at hy
        exact hy.imp_right fun ⟨hseen, hx⟩ => ⟨(), hseen, Or.inl hx⟩
      | cons first before =>
        obtain ⟨rfl, rfl⟩ := List.cons.inj hsplit
        rw [List.map_cons, List.nodup_cons] at hnodup
        rw [List.map_cons, List.disjoint_cons_left] at hdisjoint
        obtain ⟨⟨b, hb⟩, hbefore⟩ := List.forall_mem_cons.mp hbefore
        refine Or.inr ⟨(), hdisjoint.1, Or.inr ⟨b, hb, before, y, after, rfl,
          ⟨hnodup.2, ?_⟩, hbefore, ?_⟩⟩
        · exact List.disjoint_cons_right.mpr ⟨hnodup.1, hdisjoint.2⟩
        · simpa only [List.map_cons, List.mem_cons, or_assoc, or_left_comm] using hy

end Distinct

/-! ## Checks without values -/

section ForM

variable {g : α → Except ε Unit} {x : α} {before after xs : List α} {e : ε}

/-- A list of checks without values succeeds exactly when every member does. -/
theorem forM_eq_ok_iff : xs.forM g = .ok () ↔ ∀ x ∈ xs, g x = .ok () := by
  induction xs with
  | nil => exact iff_of_true rfl nofun
  | cons x xs ih =>
    rw [List.forM_eq_forM] at ih ⊢
    rw [List.forM_cons, bind_eq_ok_iff, List.forall_mem_cons, ← ih]
    constructor
    · rintro ⟨_, hx, hxs⟩
      exact ⟨hx, hxs⟩
    · rintro ⟨hx, hxs⟩
      exact ⟨(), hx, hxs⟩

/-- The first member that fails decides. -/
theorem forM_eq_error_of_split (hbefore : ∀ y ∈ before, g y = .ok ()) (hx : g x = .error e) :
    (before ++ x :: after).forM g = .error e := by
  have hfirst : before.forM g = .ok () := forM_eq_ok_iff.mpr hbefore
  rw [List.forM_eq_forM] at hfirst ⊢
  rw [List.forM_append, hfirst, List.forM_cons, hx]
  rfl

/-- A list of checks without values fails exactly with the cause of its first failing member. -/
theorem forM_eq_error_iff :
    xs.forM g = .error e ↔
      ∃ before x after, xs = before ++ x :: after ∧ (∀ y ∈ before, g y = .ok ()) ∧
          g x = .error e := by
  constructor
  · intro h
    induction xs with
    | nil => cases h
    | cons x xs ih =>
      rw [List.forM_eq_forM] at ih h
      rw [List.forM_cons, bind_eq_error_iff] at h
      rcases h with hx | ⟨_, hx, hrest⟩
      · exact ⟨[], x, xs, rfl, by simp, hx⟩
      · obtain ⟨before, y, after, rfl, hbefore, hy⟩ := ih hrest
        exact ⟨x :: before, y, after, rfl, List.forall_mem_cons.mpr ⟨hx, hbefore⟩, hy⟩
  · rintro ⟨before, x, after, rfl, hbefore, hx⟩
    exact forM_eq_error_of_split hbefore hx

end ForM

end Bindery
