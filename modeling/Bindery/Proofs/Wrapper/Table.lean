/-
# Bindery.Proofs.Wrapper.Table -- what an argument table holds.

The table of a function under a wrapping is built by a scan: the row of an argument is made from the
argument and the rows before it.  `RowFits` states the rule of one row without the scan's checks,
`Scanned` states it of every row against the rows before it, and `table_fits` says that whatever the
scan returns obeys it.  Proofs about tables use these relations, not the scan.
-/
import Bindery.Wrapper.ArgumentTable
import Bindery.Proofs.Checks
import Mathlib.Tactic.ByContra

namespace Bindery

/-! ## Names -/

theorem ForeignFunction.declares_iff {f : ForeignFunction} {name : String} :
    f.declares name = true ↔ ∃ a ∈ f.arguments, a.name = name := by
  simp [declares]

/-- A key is what has a value. -/
theorem NameMap.mem_keys_iff {m : NameMap} {key : String} :
    key ∈ m.keys ↔ ∃ value, m.find? key = some value := by
  rw [keys, find?, ← Option.isSome_iff_exists, List.lookup_isSome_iff, List.mem_map]
  constructor
  · rintro ⟨entry, hentry, rfl⟩
    exact ⟨entry, hentry, BEq.rfl⟩
  · rintro ⟨entry, hentry, hkey⟩
    exact ⟨entry, hentry, (eq_of_beq hkey).symm⟩

theorem ForeignType.pointee?_eq_some_iff {t : ForeignType} {pointee : String} :
    t.pointee? = some pointee ↔ ∃ access, t = .pointer access pointee := by
  cases t <;> simp [pointee?]

/-- What a wrapping must say about names, whatever the types are. -/
structure Wrapping.NamesFit (f : ForeignFunction) (w : Wrapping) : Prop where
  convention : w.convention.isSome → f.returns.isSome
  outputs_nodup : w.outputs.Nodup
  outputs_declared : ∀ name ∈ w.outputs, f.declares name = true
  outputs_unmapped : ∀ name ∈ w.outputs, name ∉ w.sources.keys
  mapped_declared : ∀ name ∈ w.sources.keys, f.declares name = true

theorem Wrapping.checkOutputs_eq_ok {f : ForeignFunction} {w : Wrapping} :
    ∀ {names seen : List String}, checkOutputs f w seen names = .ok () →
      names.Nodup ∧ (∀ name ∈ names, name ∉ seen) ∧ (∀ name ∈ names, f.declares name = true) ∧
        ∀ name ∈ names, name ∉ w.sources.keys := by
  intro names
  induction names with
  | nil =>
    intro seen _
    simp
  | cons name rest ih =>
    intro seen h
    rw [checkOutputs] at h
    split at h
    · cases h
    · rename_i hdeclared
      split at h
      · cases h
      · rename_i hseen
        split at h
        · cases h
        · rename_i hmapped
          -- the rest has been checked against the names before and against this one
          obtain ⟨hnodup, hnew, hrest, hunmapped⟩ := ih h
          have hkeys : name ∉ w.sources.keys := by
            rw [NameMap.mem_keys_iff, ← Option.isSome_iff_exists]
            exact hmapped
          refine ⟨?_, ?_, ?_, ?_⟩
          · rw [List.nodup_cons]
            exact ⟨fun hmem => hnew name hmem List.mem_cons_self, hnodup⟩
          · rw [List.forall_mem_cons]
            exact ⟨hseen, fun n hn hmem => hnew n hn (List.mem_cons_of_mem name hmem)⟩
          · rw [List.forall_mem_cons]
            exact ⟨by simpa using hdeclared, hrest⟩
          · rw [List.forall_mem_cons]
            exact ⟨hkeys, hunmapped⟩

theorem Wrapping.checkMapped_eq_ok {f : ForeignFunction} :
    ∀ {names : List String}, checkMapped f names = .ok () → ∀ name ∈ names,
        f.declares name = true := by
  intro names
  induction names with
  | nil => simp
  | cons name rest ih =>
    intro h
    rw [checkMapped] at h
    split at h
    · rename_i hdeclared
      rw [List.forall_mem_cons]
      exact ⟨hdeclared, ih h⟩
    · cases h

theorem Wrapping.checkConvention_eq_ok {f : ForeignFunction} {w : Wrapping}
    (h : checkConvention f w = .ok ()) :
    w.convention.isSome → f.returns.isSome := by
  unfold checkConvention at h
  split at h
  · cases h
  · rename_i hne
    cases hc : w.convention with
    | none => simp
    | some convention =>
      cases hr : f.returns with
      | none => exact absurd hr (hne convention hc)
      | some type => simp

theorem Wrapping.checkNames_eq_ok {f : ForeignFunction} {w : Wrapping}
    (h : checkNames f w = .ok ()) :
    w.NamesFit f := by
  simp only [checkNames, bind_eq_ok_iff] at h
  obtain ⟨_, hconvention, _, houtputs, hmapped⟩ := h
  obtain ⟨hnodup, -, hdeclared, hunmapped⟩ := checkOutputs_eq_ok houtputs
  exact ⟨checkConvention_eq_ok hconvention, hnodup, hdeclared, hunmapped, checkMapped_eq_ok hmapped⟩

/-! ## Rows -/

/-- **`RowFits w above a r`** -- `r` is the row of the argument `a` when `above` holds the rows
before it.  There is one rule for each role. -/
inductive RowFits (w : Wrapping) (above : List Row) (a : Argument) : Row → Prop
  | output {access : Access} {pointee : String} :
      a.name ∈ w.outputs → a.type = .pointer access pointee →
        RowFits w above a ⟨a.name, a.type, .output, a.type⟩
  | plain :
      a.name ∉ w.outputs → w.sources.find? a.name = none →
        RowFits w above a ⟨a.name, a.type, .plain, a.type⟩
  | mapped {position : Nat} {source : Row} {access sourceAccess : Access}
      {pointee sourcePointee : String} :
      a.name ∉ w.outputs → w.sources.find? a.name = some source.name →
      above[position]? = some source → source.isMapped = false →
      a.type = .pointer access pointee → source.declared = .pointer sourceAccess sourcePointee →
      (w.pointees = .identical → pointee = sourcePointee) →
      ¬ (access = .exclusive ∧ sourceAccess = .shared ∧ source.role = .plain) →
      RowFits w above a ⟨a.name, a.type, .mapped position (w.pointees = .asserted),
        if source.role = .output then .pointer access sourcePointee else a.type⟩

namespace RowFits

variable {w : Wrapping} {above : List Row} {a : Argument} {r : Row}

theorem name (h : RowFits w above a r) : r.name = a.name := by
  cases h <;> rfl

theorem declared (h : RowFits w above a r) : r.declared = a.type := by
  cases h <;> rfl

theorem output_iff (h : RowFits w above a r) : r.role = .output ↔ a.name ∈ w.outputs := by
  cases h with
  | output hlisted _ => simpa using hlisted
  | plain hlisted _ => simpa using hlisted
  | mapped hlisted _ _ _ _ _ _ _ => simpa using hlisted

theorem isMapped_iff (h : RowFits w above a r) :
    r.isMapped = true ↔ a.name ∉ w.outputs ∧ ∃ source, w.sources.find? a.name = some source := by
  cases h with
  | output hlisted _ => simp [Row.isMapped, hlisted]
  | plain hlisted hsource => simp [Row.isMapped, hsource]
  | mapped hlisted hsource _ _ _ _ _ _ => simp [Row.isMapped, hlisted, hsource]

/-- An argument that neither is an output nor has a mapped row has no source. -/
theorem find?_eq_none (h : RowFits w above a r) (hunmapped : r.isMapped = false)
    (hunlisted : a.name ∉ w.outputs) :
    w.sources.find? a.name = none := by
  cases h with
  | output hlisted _ => exact absurd hlisted hunlisted
  | plain _ hsource => exact hsource
  | mapped _ _ _ _ _ _ _ _ => cases hunmapped

theorem plain_iff (h : RowFits w above a r) :
    r.role = .plain ↔ a.name ∉ w.outputs ∧ w.sources.find? a.name = none := by
  cases h with
  | output hlisted _ => simp [hlisted]
  | plain hlisted hsource => simp [hlisted, hsource]
  | mapped hlisted hsource _ _ _ _ _ _ => simp [hsource]

end RowFits

namespace Wrapping

variable {f : ForeignFunction} {w : Wrapping}

/-- The row of a mapped argument as a chain of checks. -/
theorem mappedRow_eq (above : List Row) (a : Argument) (source : String) :
    mappedRow f w above a source = (do
    let position ← need (above.findIdx? (·.name == source))
      (if f.declares source then .sourceLater source a.name else .sourceUndeclared source a.name)
    let row ← need above[position]? (.sourceUndeclared source a.name)
    reject (row.isMapped = true) (.sourceMapped source a.name)
    let pointee ← need a.type.pointee? (.notAPointer a.name .mapped)
    let sourcePointee ← need row.declared.pointee? (.notAPointer source .source)
    reject (w.pointees = .identical ∧ pointee ≠ sourcePointee)
      (.pointeesDiffer a.name source pointee sourcePointee)
    reject (a.type.isExclusive && row.role == .plain && !row.declared.isExclusive)
      (.aliasesShared a.name source)
    return ⟨a.name, a.type, .mapped position (w.pointees = .asserted),
      if row.role = .output then (a.type.withPointee? sourcePointee).getD a.type else a.type⟩) := by
  unfold mappedRow need reject
  cases above.findIdx? (·.name == source) with
  | none => rfl
  | some position =>
    simp only [bind, Except.bind]
    cases above[position]? with
    | none => rfl
    | some row =>
      simp only
      by_cases hmapped : row.isMapped = true
      · rw [if_pos hmapped, if_pos hmapped]
        rfl
      · rw [if_neg hmapped, if_neg hmapped]
        cases a.type.pointee? with
        | none => rfl
        | some pointee =>
          cases row.declared.pointee? with
          | none => rfl
          | some sourcePointee =>
            simp only
            split
            · rfl
            · split <;> rfl

/-- A mapped argument's row obeys its rule. -/
theorem mappedRow_eq_ok {above : List Row} {a : Argument} {source : String} {r : Row}
    (hlisted : a.name ∉ w.outputs) (hsource : w.sources.find? a.name = some source)
    (h : mappedRow f w above a source = .ok r) : RowFits w above a r := by
  rw [mappedRow_eq] at h
  simp only [bind_eq_ok_iff, need_eq_ok_iff, reject_eq_ok_iff, pure_eq_ok_iff] at h
  obtain ⟨position, hposition, row, hrow, _, hmapped, pointee, hpointee, sourcePointee,
    hsourcePointee, _, hagree, _, halias, rfl⟩ := h
  have hname : row.name = source := by
    obtain ⟨hlt, hbeq, -⟩ := List.findIdx?_eq_some_iff_getElem.mp hposition
    rw [List.getElem?_eq_getElem hlt] at hrow
    rw [← Option.some.inj hrow]
    exact eq_of_beq hbeq
  obtain ⟨access, htype⟩ := ForeignType.pointee?_eq_some_iff.mp hpointee
  obtain ⟨sourceAccess, hdeclared⟩ := ForeignType.pointee?_eq_some_iff.mp hsourcePointee
  have hbinding : (a.type.withPointee? sourcePointee).getD a.type =
      .pointer access sourcePointee := by
    rw [htype]
    rfl
  rw [hbinding]
  refine .mapped hlisted (by rw [hname]; exact hsource) hrow (by simpa using hmapped) htype
    hdeclared ?_ ?_
  · intro hidentical
    by_contra hne
    exact hagree ⟨hidentical, hne⟩
  · rintro ⟨rfl, rfl, hplain⟩
    apply halias
    rw [htype, hdeclared, hplain]
    rfl

/-- A row that is made obeys its rule. -/
theorem row_eq_ok {above : List Row} {a : Argument} {r : Row} (h : row f w above a = .ok r) :
    RowFits w above a r := by
  unfold row at h
  split at h
  · rename_i hlisted
    split at h
    · cases h
    · rename_i access pointee htype
      cases h
      exact .output (List.contains_iff_mem.mp hlisted) htype
  · rename_i hlisted
    rw [List.contains_iff_mem] at hlisted
    split at h
    · rename_i source hsource
      exact mappedRow_eq_ok hlisted hsource h
    · rename_i hsource
      cases h
      exact .plain hlisted hsource

end Wrapping

/-! ## Scans -/

/-- **`Scanned w args rows`** -- `rows` are the rows of `args`, each by its rule against the rows
before it. -/
structure Scanned (w : Wrapping) (args : List Argument) (rows : List Row) : Prop where
  length : rows.length = args.length
  fits : ∀ {i : Nat} {a : Argument} {r : Row}, args[i]? = some a → rows[i]? = some r →
    RowFits w (rows.take i) a r

namespace Scanned

variable {w : Wrapping} {args : List Argument} {rows : List Row}

/-- Every row is the row of the argument at its position. -/
theorem argument (h : Scanned w args rows) {i : Nat} {r : Row} (hr : rows[i]? = some r) :
    ∃ a, args[i]? = some a ∧ RowFits w (rows.take i) a r := by
  have hi : i < args.length := by
    rw [← h.length]
    exact (List.getElem?_eq_some_iff.mp hr).1
  exact ⟨args[i], List.getElem?_eq_getElem hi, h.fits (List.getElem?_eq_getElem hi) hr⟩

/-- Every argument has a row at its position. -/
theorem row (h : Scanned w args rows) {i : Nat} {a : Argument} (ha : args[i]? = some a) :
    ∃ r, rows[i]? = some r ∧ RowFits w (rows.take i) a r := by
  have hi : i < rows.length := by
    rw [h.length]
    exact (List.getElem?_eq_some_iff.mp ha).1
  exact ⟨rows[i], List.getElem?_eq_getElem hi, h.fits ha (List.getElem?_eq_getElem hi)⟩

theorem argument_of_mem (h : Scanned w args rows) {r : Row} (hr : r ∈ rows) :
    ∃ i a, args[i]? = some a ∧ RowFits w (rows.take i) a r := by
  obtain ⟨i, hi⟩ := List.getElem?_of_mem hr
  exact ⟨i, h.argument hi⟩

theorem row_of_mem (h : Scanned w args rows) {a : Argument} (ha : a ∈ args) :
    ∃ i r, rows[i]? = some r ∧ RowFits w (rows.take i) a r := by
  obtain ⟨i, hi⟩ := List.getElem?_of_mem ha
  exact ⟨i, h.row hi⟩

/-- What holds of the types of all arguments, whatever the access of a pointer, holds of the types
that bind them. -/
theorem binding_of_forall {P : ForeignType → Prop}
    (haccess : ∀ {access access' : Access} {pointee : String}, P (.pointer access pointee) →
    P (.pointer access' pointee))
    (h : Scanned w args rows) (hargs : ∀ a ∈ args, P a.type) {r : Row} (hr : r ∈ rows) :
    P r.binding := by
  obtain ⟨i, a, ha, hfits⟩ := h.argument_of_mem hr
  have htype : P a.type := hargs a (List.mem_of_getElem? ha)
  cases hfits with
  | output _ _ => exact htype
  | plain _ _ => exact htype
  | mapped _ _ hsource _ _ hdeclared _ _ =>
    split
    · -- the pointee is that of the source, which is the row of an argument too
      obtain ⟨j, b, hb, hsourceFits⟩ :=
        h.argument_of_mem (List.mem_of_mem_take (List.mem_of_getElem? hsource))
      rw [hsourceFits.declared] at hdeclared
      exact haccess (hdeclared ▸ hargs b (List.mem_of_getElem? hb))
    · exact htype

theorem nil : Scanned w [] [] :=
  ⟨rfl, by simp⟩

/-- One more argument leaves the rows before it as they are. -/
theorem step {a : Argument} {r : Row} (h : Scanned w args rows) (hr : RowFits w rows a r) :
    Scanned w (args ++ [a]) (rows ++ [r]) := by
  refine ⟨by simp [h.length], ?_⟩
  intro i b q hb hq
  -- a position before the end sees the same rows above it, and the last one sees all of `rows`
  by_cases hi : i < args.length
  · have hi' : i < rows.length := by rw [h.length]; exact hi
    rw [List.getElem?_append_left hi] at hb
    rw [List.getElem?_append_left hi'] at hq
    rw [List.take_append_of_le_length (Nat.le_of_lt hi')]
    exact h.fits hb hq
  · have hlt : i < (args ++ [a]).length := List.getElem?_eq_some_iff.mp hb |>.1
    have hlast : i = rows.length := by
      rw [List.length_append, List.length_singleton] at hlt
      rw [h.length]
      omega
    subst hlast
    rw [List.getElem?_concat_length] at hq
    rw [h.length, List.getElem?_concat_length] at hb
    cases hb
    cases hq
    rw [List.take_left]
    exact hr

end Scanned

namespace Wrapping

variable {f : ForeignFunction} {w : Wrapping}

/-- A scan that succeeds has read every argument. -/
theorem addRows_scanned :
    ∀ {rest : List Argument} {before : List Argument} {above rows : List Row},
      Scanned w before above →
      addRows f w above rest = .ok rows → Scanned w (before ++ rest) rows := by
  intro rest
  induction rest with
  | nil =>
    intro before above rows hscanned h
    cases h
    rw [List.append_nil]
    exact hscanned
  | cons a rest ih =>
    intro before above rows hscanned h
    -- the row that is added belongs to the next argument, so both sides of the invariant grow by
    -- one
    rw [addRows, bind_eq_ok_iff] at h
    obtain ⟨r, hr, h⟩ := h
    rw [List.append_cons]
    exact ih (hscanned.step (row_eq_ok hr)) h

/-- A scan that fails has read the arguments before the one whose row cannot be made. -/
theorem addRows_eq_error {fault : WrappingFault} :
    ∀ {rest : List Argument} {before : List Argument} {above : List Row}, Scanned w before above →
      addRows f w above rest = .error fault →
      ∃ (read : List Argument) (a : Argument) (after : List Argument) (rows : List Row),
        before ++ rest = read ++ a :: after ∧ Scanned w read rows ∧ row f w rows a =
            .error fault := by
  intro rest
  induction rest with
  | nil =>
    intro before above _ h
    cases h
  | cons a rest ih =>
    intro before above hscanned h
    rw [addRows, bind_eq_error_iff] at h
    rcases h with h | ⟨r, hr, h⟩
    · exact ⟨before, a, rest, above, rfl, hscanned, h⟩
    · rw [List.append_cons]
      exact ih (hscanned.step (row_eq_ok hr)) h

end Wrapping

/-! ## Tables -/

/-- **`TableFits f w t`** -- `t` is a table of the function under the wrapping. -/
structure TableFits (f : ForeignFunction) (w : Wrapping) (t : ArgumentTable) : Prop where
  names : w.NamesFit f
  rows : Scanned w f.arguments t.rows
  returned : t.returned = w.outputs

/-- What the derivation of a table returns is a table of the function under the wrapping. -/
theorem table_fits {f : ForeignFunction} {w : Wrapping} {t : ArgumentTable}
    (h : w.table f = .ok t) : TableFits f w t := by
  simp only [Wrapping.table, bind_eq_ok_iff, pure_eq_ok_iff] at h
  obtain ⟨_, hnames, rows, hrows, rfl⟩ := h
  exact ⟨Wrapping.checkNames_eq_ok hnames, Wrapping.addRows_scanned .nil hrows, rfl⟩

end Bindery
