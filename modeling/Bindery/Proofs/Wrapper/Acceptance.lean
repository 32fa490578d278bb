/-
# Bindery.Proofs.Wrapper.Acceptance -- which wrappings fit a function, and what a fault says.

The argument table is derived by a scan from left to right that looks sources up among the rows
before.  `Wrapping.Fits` states without any order of checks when a wrapping fits a function, and
`WrappingFault.Holds` states what each fault says about the arguments that it names.  A fault is
only reported where it holds, and a fault that holds excludes a fit; so the scan accepts exactly the
wrappings that fit.
-/
import Bindery.Proofs.Wrapper.Table
import Mathlib.Data.List.Nodup

namespace Bindery

/-! ## The rules -/

/-- Some argument named `source` stands strictly before some argument named `name`. -/
def ForeignFunction.DeclaresBefore (f : ForeignFunction) (source name : String) : Prop :=
  ∃ (i j : Nat) (b a : Argument),
    i < j ∧ f.arguments[i]? = some b ∧ f.arguments[j]? = some a ∧ b.name = source ∧ a.name = name

/-- The types of an argument `a` and its source `b` go together: both are pointers, they point to
the same type unless the catalog asserts a cast, and no pointer that may be written through reuses a
plain shared one. -/
def Wrapping.TypesFit (w : Wrapping) (a b : Argument) : Prop :=
  ∃ (access sourceAccess : Access) (pointee sourcePointee : String),
    a.type = .pointer access pointee ∧ b.type = .pointer sourceAccess sourcePointee ∧
      (w.pointees = .identical → pointee = sourcePointee) ∧
      ¬ (access = .exclusive ∧ sourceAccess = .shared ∧ b.name ∉ w.outputs)

/-- The mapping of `name` to `source` fits. -/
structure Wrapping.SourceFits (f : ForeignFunction) (w : Wrapping) (name source : String) :
    Prop where
  before : f.DeclaresBefore source name
  unmapped : source ∉ w.sources.keys
  types : ∀ a ∈ f.arguments, ∀ b ∈ f.arguments, a.name = name → b.name = source → w.TypesFit a b

/-- **`w.Fits f`** -- the wrapping fits the function: its names do, its outputs are pointers, and so
does every mapping. -/
structure Wrapping.Fits (f : ForeignFunction) (w : Wrapping) : Prop extends w.NamesFit f where
  outputs_pointers : ∀ a ∈ f.arguments, a.name ∈ w.outputs → ∃ access pointee,
    a.type = .pointer access pointee
  sources_fit : ∀ name source, w.sources.find? name = some source → w.SourceFits f name source

/-- **`fault.Holds f w`** -- what the fault says of the arguments that it names is so.  The last two
faults belong to later stages and say nothing about the arguments of one wrapping. -/
def WrappingFault.Holds (f : ForeignFunction) (w : Wrapping) : WrappingFault → Prop
  | .conventionWithoutReturn convention => w.convention = some convention ∧ f.returns = none
  | .outputUndeclared argument => argument ∈ w.outputs ∧ ¬ f.declares argument = true
  | .outputRepeated argument => 2 ≤ w.outputs.count argument
  | .outputMapped argument => argument ∈ w.outputs ∧ argument ∈ w.sources.keys
  | .mappedUndeclared argument => argument ∈ w.sources.keys ∧ ¬ f.declares argument = true
  | .sourceLater source argument =>
    w.sources.find? argument = some source ∧ f.declares source = true ∧
      ¬ f.DeclaresBefore source argument
  | .sourceUndeclared source argument =>
    w.sources.find? argument = some source ∧ ¬ f.declares source = true
  | .sourceMapped source argument =>
    w.sources.find? argument = some source ∧ source ∈ w.sources.keys
  | .notAPointer argument use =>
    (∃ a ∈ f.arguments, a.name = argument ∧ a.type.pointee? = none) ∧
      match use with
      | .output => argument ∈ w.outputs
      | .mapped => argument ∈ w.sources.keys
      | .source => ∃ name, w.sources.find? name = some argument
  | .pointeesDiffer argument source expected found =>
    w.sources.find? argument = some source ∧ w.pointees = .identical ∧ expected ≠ found ∧
      (∃ a ∈ f.arguments, a.name = argument ∧ a.type.pointee? = some expected) ∧
      ∃ b ∈ f.arguments, b.name = source ∧ b.type.pointee? = some found
  | .aliasesShared argument source =>
    w.sources.find? argument = some source ∧ source ∉ w.outputs ∧ source ∉ w.sources.keys ∧
      (∃ a ∈ f.arguments, a.name = argument ∧ ∃ pointee, a.type = .pointer .exclusive pointee) ∧
      ∃ b ∈ f.arguments, b.name = source ∧ ∃ pointee, b.type = .pointer .shared pointee
  | .returnUnhandled _ => False
  | .declarationConflict _ => False

/-! ## A fault excludes a fit -/

section Faults

variable {f : ForeignFunction} {w : Wrapping}

/-- Every mapped name belongs to an argument, and so does its source. -/
theorem Wrapping.Fits.sources_declared (h : w.Fits f) {name source : String}
    (hsource : w.sources.find? name = some source) :
    (∃ a ∈ f.arguments, a.name = name) ∧ ∃ b ∈ f.arguments, b.name = source := by
  obtain ⟨i, j, b, a, -, hb, ha, hbname, haname⟩ := (h.sources_fit name source hsource).before
  exact ⟨⟨a, List.mem_of_getElem? ha, haname⟩, b, List.mem_of_getElem? hb, hbname⟩

/-- What a fault says cannot be so when the wrapping fits. -/
theorem WrappingFault.Holds.not_fits {fault : WrappingFault} (h : fault.Holds f w) :
    ¬ w.Fits f := by
  intro hfits
  cases fault with
  | conventionWithoutReturn convention =>
    have hsome := hfits.convention (by rw [h.1]; rfl)
    rw [h.2] at hsome
    cases hsome
  | outputUndeclared argument => exact h.2 (hfits.outputs_declared argument h.1)
  | outputRepeated argument =>
    have hone := List.nodup_iff_count_le_one.mp hfits.outputs_nodup argument
    have htwo : 2 ≤ w.outputs.count argument := h
    omega
  | outputMapped argument => exact hfits.outputs_unmapped argument h.1 h.2
  | mappedUndeclared argument => exact h.2 (hfits.mapped_declared argument h.1)
  | sourceLater source argument => exact h.2.2 (hfits.sources_fit argument source h.1).before
  | sourceUndeclared source argument =>
    exact h.2 (ForeignFunction.declares_iff.mpr (hfits.sources_declared h.1).2)
  | sourceMapped source argument => exact (hfits.sources_fit argument source h.1).unmapped h.2
  | notAPointer argument use =>
    obtain ⟨⟨a, ha, rfl, htype⟩, huse⟩ := h
    cases use with
    | output =>
      obtain ⟨access, pointee, hpointer⟩ := hfits.outputs_pointers a ha huse
      rw [hpointer] at htype
      cases htype
    | mapped =>
      obtain ⟨source, hsource⟩ := NameMap.mem_keys_iff.mp huse
      obtain ⟨-, b, hb, hbname⟩ := hfits.sources_declared hsource
      obtain ⟨_, _, _, _, hpointer, -⟩ :=
        (hfits.sources_fit a.name source hsource).types a ha b hb rfl hbname
      rw [hpointer] at htype
      cases htype
    | source =>
      obtain ⟨name, hsource⟩ := huse
      obtain ⟨⟨b, hb, hbname⟩, -⟩ := hfits.sources_declared hsource
      obtain ⟨_, _, _, _, -, hpointer, -⟩ :=
        (hfits.sources_fit name a.name hsource).types b hb a ha hbname rfl
      rw [hpointer] at htype
      cases htype
  | pointeesDiffer argument source expected found =>
    obtain ⟨hsource, hrule, hne, ⟨a, ha, haname, hexpected⟩, b, hb, hbname, hfound⟩ := h
    obtain ⟨access, sourceAccess, pointee, sourcePointee, hatype, hbtype, hagree, -⟩ :=
      (hfits.sources_fit argument source hsource).types a ha b hb haname hbname
    rw [hatype] at hexpected
    rw [hbtype] at hfound
    cases hexpected
    cases hfound
    exact hne (hagree hrule)
  | aliasesShared argument source =>
    obtain ⟨hsource, hlisted, -, ⟨a, ha, haname, own, hatype⟩, b, hb, hbname, other, hbtype⟩ := h
    obtain ⟨access, sourceAccess, pointee, sourcePointee, hatype', hbtype', -, halias⟩ :=
      (hfits.sources_fit argument source hsource).types a ha b hb haname hbname
    rw [hatype] at hatype'
    rw [hbtype] at hbtype'
    cases hatype'
    cases hbtype'
    exact halias ⟨rfl, rfl, by rw [hbname]; exact hlisted⟩
  | returnUnhandled wrapper => exact h
  | declarationConflict wrapper => exact h

end Faults

/-! ## A reported fault holds -/

namespace Wrapping

variable {f : ForeignFunction} {w : Wrapping} {fault : WrappingFault}

theorem checkOutputs_holds :
    ∀ {names seen : List String}, w.outputs = seen.reverse ++ names → checkOutputs f w seen names =
      .error fault →
      fault.Holds f w := by
  intro names
  induction names with
  | nil =>
    intro seen _ h
    cases h
  | cons name rest ih =>
    intro seen houtputs h
    have hlisted : name ∈ w.outputs := by
      rw [houtputs]
      exact List.mem_append_right _ List.mem_cons_self
    rw [checkOutputs] at h
    split at h
    · rename_i hdeclared
      cases h
      exact ⟨hlisted, by simpa using hdeclared⟩
    · split at h
      · rename_i hseen
        cases h
        show 2 ≤ w.outputs.count name
        have hbefore : 0 < seen.reverse.count name :=
          List.count_pos_iff.mpr (List.mem_reverse.mpr hseen)
        rw [houtputs, List.count_append, List.count_cons_self]
        omega
      · split at h
        · rename_i hmapped
          cases h
          exact ⟨hlisted, NameMap.mem_keys_iff.mpr (Option.isSome_iff_exists.mp hmapped)⟩
        · exact ih (by rw [houtputs, List.reverse_cons, List.append_assoc]; rfl) h

theorem checkMapped_holds :
    ∀ {names : List String}, (∀ name ∈ names, name ∈ w.sources.keys) → checkMapped f names =
      .error fault →
      fault.Holds f w := by
  intro names
  induction names with
  | nil =>
    intro _ h
    cases h
  | cons name rest ih =>
    intro hkeys h
    rw [List.forall_mem_cons] at hkeys
    rw [checkMapped] at h
    split at h
    · exact ih hkeys.2 h
    · rename_i hdeclared
      cases h
      exact ⟨hkeys.1, hdeclared⟩

theorem checkNames_holds (h : checkNames f w = .error fault) : fault.Holds f w := by
  simp only [checkNames, bind_eq_error_iff] at h
  rcases h with h | ⟨_, -, h | ⟨_, -, h⟩⟩
  · unfold checkConvention at h
    split at h
    · rename_i convention hconvention hreturns
      cases h
      exact ⟨hconvention, hreturns⟩
    · cases h
  · exact checkOutputs_holds (by simp) h
  · exact checkMapped_holds (fun name hname => hname) h

/-! ### Rows -/

section Rows

variable {before after : List Argument} {a : Argument} {above : List Row}

/-- An argument that no argument before it is a source of is not preceded by its source. -/
theorem not_declaresBefore (hnodup : (f.arguments.map (·.name)).Nodup)
    (hargs : f.arguments = before ++ a :: after)
    {source : String} (hnone : ∀ b ∈ before, b.name ≠ source) :
    ¬ f.DeclaresBefore source a.name := by
  rintro ⟨i, j, b, a', hij, hb, ha', hbname, haname⟩
  have hself : f.arguments[before.length]? = some a := by
    rw [hargs]
    simp
  -- names are distinct, so the only argument of this name stands where the scan is
  have hpos : before.length = j := by
    refine (List.getElem?_inj ?_ hnodup).mp ?_
    · rw [List.length_map]
      exact (List.getElem?_eq_some_iff.mp hself).1
    · rw [List.getElem?_map, List.getElem?_map, hself, ha']
      simp [haname]
  have hmem : b ∈ before := by
    rw [hargs, List.getElem?_append_left (by omega)] at hb
    exact List.mem_of_getElem? hb
  exact hnone b hmem hbname

/-- A source that is not found among the rows is not among the arguments before. -/
theorem not_source_of_findIdx?_eq_none (hscanned : Scanned w before above) {source : String}
    (hnone : above.findIdx? (·.name == source) = none) : ∀ b ∈ before, b.name ≠ source := by
  intro b hb hname
  obtain ⟨i, r, hr, hfits⟩ := hscanned.row_of_mem hb
  have hne := List.findIdx?_eq_none_iff.mp hnone r (List.mem_of_getElem? hr)
  rw [hfits.name, hname, beq_self_eq_true] at hne
  cases hne

/-- The row that a look-up finds belongs to the source, which stands among the arguments before. -/
theorem source_of_findIdx?_eq_some (hscanned : Scanned w before above) {source : String}
    {position : Nat} {r : Row}
    (hposition : above.findIdx? (·.name == source) = some position)
    (hr : above[position]? = some r) :
    ∃ b ∈ before, b.name = source ∧ RowFits w (above.take position) b r := by
  obtain ⟨hlt, hbeq, -⟩ := List.findIdx?_eq_some_iff_getElem.mp hposition
  obtain ⟨b, hb, hfits⟩ := hscanned.argument hr
  refine ⟨b, List.mem_of_getElem? hb, ?_, hfits⟩
  rw [List.getElem?_eq_getElem hlt] at hr
  rw [← hfits.name, ← Option.some.inj hr]
  exact eq_of_beq hbeq

/-- The scan's test for an alias finds a pointer that may be written through and reuses a shared
one. -/
theorem accesses_of_alias {t u : ForeignType} {pointee sourcePointee : String}
    (ht : t.pointee? = some pointee)
    (hu : u.pointee? = some sourcePointee) (hexclusive : t.isExclusive = true)
    (hshared : u.isExclusive = false) :
    t = .pointer .exclusive pointee ∧ u = .pointer .shared sourcePointee := by
  obtain ⟨access, rfl⟩ := ForeignType.pointee?_eq_some_iff.mp ht
  obtain ⟨sourceAccess, rfl⟩ := ForeignType.pointee?_eq_some_iff.mp hu
  cases access with
  | shared => cases hexclusive
  | exclusive =>
    cases sourceAccess with
    | shared => exact ⟨rfl, rfl⟩
    | exclusive => cases hshared

theorem mappedRow_holds (hnodup : (f.arguments.map (·.name)).Nodup)
    (hargs : f.arguments = before ++ a :: after)
    (hscanned : Scanned w before above) {source : String}
    (hsource : w.sources.find? a.name = some source)
    (h : mappedRow f w above a source = .error fault) : fault.Holds f w := by
  have ha : a ∈ f.arguments := by
    rw [hargs]
    exact List.mem_append_right _ List.mem_cons_self
  have hkey : a.name ∈ w.sources.keys := NameMap.mem_keys_iff.mpr ⟨source, hsource⟩
  rw [mappedRow_eq] at h
  simp only [bind_eq_error_iff, need_eq_error_iff, need_eq_ok_iff, reject_eq_error_iff,
    reject_eq_ok_iff, pure_ne_error, exists_false, and_false, or_false] at h
  rcases h with ⟨hnone, hfault⟩ | ⟨position, hposition, ⟨hnone, -⟩ | ⟨row, hrow, h⟩⟩
  · have hbefore := not_declaresBefore hnodup hargs (not_source_of_findIdx?_eq_none hscanned hnone)
    split at hfault
    · rename_i hdeclared
      rw [← hfault]
      exact ⟨hsource, hdeclared, hbefore⟩
    · rename_i hdeclared
      rw [← hfault]
      exact ⟨hsource, hdeclared⟩
  · have hlt := (List.findIdx?_eq_some_iff_getElem.mp hposition).1
    rw [List.getElem?_eq_getElem hlt] at hnone
    cases hnone
  · obtain ⟨b, hmem, hbname, hfits⟩ := source_of_findIdx?_eq_some hscanned hposition hrow
    have hb : b ∈ f.arguments := by
      rw [hargs]
      exact List.mem_append_left _ hmem
    rw [hfits.declared] at h
    -- the five faults that are left, in the order in which they are looked for
    rcases h with ⟨hmapped, rfl⟩ | ⟨_, -, ⟨hpointee, rfl⟩ | ⟨pointee, hpointee, ⟨hpointee', rfl⟩ |
      ⟨sourcePointee, hpointee', ⟨⟨hrule, hne⟩, rfl⟩ | ⟨_, -, halias, rfl⟩⟩⟩⟩
    · obtain ⟨-, next, hnext⟩ := hfits.isMapped_iff.mp hmapped
      rw [hbname] at hnext
      exact ⟨hsource, NameMap.mem_keys_iff.mpr ⟨next, hnext⟩⟩
    · exact ⟨⟨a, ha, rfl, hpointee⟩, hkey⟩
    · exact ⟨⟨b, hb, hbname, hpointee'⟩, a.name, hsource⟩
    · exact ⟨hsource, hrule, hne, ⟨a, ha, rfl, hpointee⟩, b, hb, hbname, hpointee'⟩
    · simp only [Bool.and_eq_true, beq_iff_eq, Bool.not_eq_true'] at halias
      obtain ⟨⟨hexclusive, hplain⟩, hshared⟩ := halias
      obtain ⟨htype, htype'⟩ := accesses_of_alias hpointee hpointee' hexclusive hshared
      obtain ⟨hlisted, hunmapped⟩ := hfits.plain_iff.mp hplain
      rw [hbname] at hlisted hunmapped
      refine ⟨hsource, hlisted, ?_, ⟨a, ha, rfl, pointee, htype⟩, b, hb, hbname,
        sourcePointee, htype'⟩
      intro hmem
      obtain ⟨next, hnext⟩ := NameMap.mem_keys_iff.mp hmem
      rw [hunmapped] at hnext
      cases hnext

theorem row_holds (hnodup : (f.arguments.map (·.name)).Nodup)
    (hargs : f.arguments = before ++ a :: after)
    (hscanned : Scanned w before above) (h : row f w above a = .error fault) : fault.Holds f w := by
  have ha : a ∈ f.arguments := by
    rw [hargs]
    exact List.mem_append_right _ List.mem_cons_self
  unfold row at h
  split at h
  · rename_i hlisted
    split at h
    · rename_i text htype
      cases h
      exact ⟨⟨a, ha, rfl, by rw [htype]; rfl⟩, List.contains_iff_mem.mp hlisted⟩
    · cases h
  · split at h
    · rename_i source hsource
      exact mappedRow_holds hnodup hargs hscanned hsource h
    · cases h

end Rows

/-- Every fault that the derivation of a table reports holds. -/
theorem table_holds (hnodup : (f.arguments.map (·.name)).Nodup) (h : w.table f = .error fault) :
    fault.Holds f w := by
  simp only [table, bind_eq_error_iff, pure_ne_error, exists_false, and_false, or_false] at h
  rcases h with h | ⟨_, -, h⟩
  · exact checkNames_holds h
  · obtain ⟨read, a, after, rows, hargs, hscanned, hrow⟩ := addRows_eq_error .nil h
    exact row_holds hnodup hargs hscanned hrow

end Wrapping

/-! ## A table fits -/

namespace TableFits

variable {f : ForeignFunction} {w : Wrapping} {t : ArgumentTable}

theorem outputs_pointers (h : TableFits f w t) :
    ∀ a ∈ f.arguments, a.name ∈ w.outputs → ∃ access pointee, a.type = .pointer access pointee := by
  intro a ha hlisted
  obtain ⟨i, r, -, hfits⟩ := h.rows.row_of_mem ha
  cases hfits with
  | output _ htype => exact ⟨_, _, htype⟩
  | plain hunlisted _ => exact absurd hlisted hunlisted
  | mapped hunlisted _ _ _ _ _ _ _ => exact absurd hlisted hunlisted

theorem sources_fit (h : TableFits f w t) (hnodup : (f.arguments.map (·.name)).Nodup) :
    ∀ name source, w.sources.find? name = some source → w.SourceFits f name source := by
  intro name source hsource
  have hkey : name ∈ w.sources.keys := NameMap.mem_keys_iff.mpr ⟨source, hsource⟩
  have hunlisted : name ∉ w.outputs := fun hmem => h.names.outputs_unmapped name hmem hkey
  obtain ⟨a, ha, rfl⟩ := ForeignFunction.declares_iff.mp (h.names.mapped_declared name hkey)
  obtain ⟨j, hj⟩ := List.getElem?_of_mem ha
  obtain ⟨r, -, hfits⟩ := h.rows.row hj
  cases hfits with
  | output hlisted _ => exact absurd hlisted hunlisted
  | plain _ hnone =>
    rw [hsource] at hnone
    cases hnone
  | @mapped i s access sourceAccess pointee sourcePointee _ hsource' hrow hunmapped htype hdeclared
      hagree halias =>
    rw [hsource] at hsource'
    obtain rfl := Option.some.inj hsource'
    rw [List.getElem?_take] at hrow
    split at hrow
    · rename_i hij
      obtain ⟨b, hb, hbfits⟩ := h.rows.argument hrow
      have hbname := hbfits.name
      refine ⟨⟨i, j, b, a, hij, hb, hj, hbname.symm, rfl⟩, ?_, ?_⟩
      · intro hmem
        -- a key that is no output would have a mapped row
        obtain ⟨next, hnext⟩ := NameMap.mem_keys_iff.mp hmem
        have hblisted := fun hlisted => h.names.outputs_unmapped s.name hlisted hmem
        rw [hbname] at hnext hblisted
        rw [hbfits.find?_eq_none hunmapped hblisted] at hnext
        cases hnext
      · intro a' ha' b' hb' haname hbname'
        -- names are distinct, so the rule speaks of these two arguments alone
        obtain rfl := List.inj_on_of_nodup_map hnodup ha' ha haname
        obtain rfl :=
          List.inj_on_of_nodup_map hnodup hb' (List.mem_of_getElem? hb) (hbname'.trans hbname)
        rw [hbfits.declared] at hdeclared
        refine ⟨access, sourceAccess, pointee, sourcePointee, htype, hdeclared, hagree, ?_⟩
        rintro ⟨hexclusive, hshared, hblisted⟩
        have hplain := hbfits.plain_iff.mpr ⟨hblisted, hbfits.find?_eq_none hunmapped hblisted⟩
        exact halias ⟨hexclusive, hshared, hplain⟩
    · cases hrow

/-- A function that has a table under a wrapping is fitted by it. -/
theorem fits (h : TableFits f w t) (hnodup : (f.arguments.map (·.name)).Nodup) : w.Fits f :=
  { h.names with
    outputs_pointers := h.outputs_pointers
    sources_fit := h.sources_fit hnodup }

end TableFits

/-! ## Exact acceptance -/

/-- There is a table if and only if the wrapping fits. -/
theorem Wrapping.exists_table_iff {f : ForeignFunction} {w : Wrapping}
    (hnodup : (f.arguments.map (·.name)).Nodup) :
    (∃ t, w.table f = .ok t) ↔ w.Fits f := by
  constructor
  · rintro ⟨t, ht⟩
    exact (table_fits ht).fits hnodup
  · intro hfits
    apply exists_eq_ok
    intro fault hfault
    exact (table_holds hnodup hfault).not_fits hfits

/-- **A table exists exactly when the wrapping fits**, and every fault that is reported instead is
true of the arguments that it names. -/
theorem table_exists_iff_fits_and_holds (f : ForeignFunction) (w : Wrapping)
    (hnodup : (f.arguments.map (·.name)).Nodup) :
    ((∃ t, w.table f = .ok t) ↔ w.Fits f) ∧ ∀ fault, w.table f = .error fault → fault.Holds f w :=
  ⟨Wrapping.exists_table_iff hnodup, fun _ hfault => Wrapping.table_holds hnodup hfault⟩

/-- A function whose first argument is shared and whose second may be written through. -/
def aliasingFunction : ForeignFunction :=
  ⟨"fold", [⟨"a", .pointer .shared "Poly"⟩, ⟨"r", .pointer .exclusive "Poly"⟩], none, none, []⟩

/-- A wrapping that folds in place. -/
def aliasingWrapping : Wrapping :=
  ⟨"", ⟨[("r", "a")]⟩, [], none, .identical, none⟩

/-- A pointer that may be written through cannot reuse a shared one, and this is what is reported.
-/
theorem aliasingWrapping_is_refused :
    (aliasingFunction.arguments.map (·.name)).Nodup ∧
      aliasingWrapping.table aliasingFunction = .error (.aliasesShared "r" "a") ∧
      ¬ aliasingWrapping.Fits aliasingFunction ∧
      (WrappingFault.aliasesShared "r" "a").Holds aliasingFunction aliasingWrapping := by
  have hnodup : (aliasingFunction.arguments.map (·.name)).Nodup := by decide
  have hfault : aliasingWrapping.table aliasingFunction =
    .error (.aliasesShared "r" "a") := by decide +kernel
  obtain ⟨hiff, hholds⟩ := table_exists_iff_fits_and_holds aliasingFunction aliasingWrapping hnodup
  refine ⟨hnodup, hfault, ?_, hholds _ hfault⟩
  rw [← hiff]
  rintro ⟨t, ht⟩
  rw [hfault] at ht
  cases ht

end Bindery
