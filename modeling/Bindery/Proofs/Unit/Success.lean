/-
# Bindery.Proofs.Unit.Success -- exactly when a run succeeds, and which error it reports otherwise.

A run validates every pair of the catalog first and then assembles the units of the selected
variants one after another.  Three conditions decide it, none of which speaks of an order: every
pair can be derived, wherever it is used; the wrappings of a function that a backend has bind its
arguments alike; and no two wrappers of a backend share a name.  An error is reported only where the
condition that it stands for is broken, so a run that breaks none of them succeeds.
-/
import Bindery.Catalog.Document
import Bindery.Proofs.Catalog.Accepted
import Bindery.Proofs.Unit.Drafts
import Bindery.Proofs.Wrapper.Signature

namespace Bindery

/-! ## The conditions -/

namespace FunctionCatalog

/-- Every wrapping of every function has a table, and no raw value is left over beside outputs. -/
def Derivable (c : FunctionCatalog) : Prop :=
  ∀ f ∈ c.functions, ∀ w ∈ f.wrappings,
    (∃ t, w.table f = .ok t) ∧ ¬ (f.returns.isSome ∧ w.outputs ≠ [] ∧ w.convention = none)

/-- All wrappings of a function that the backend has bind its arguments to the same types. -/
def BindsAlike (c : FunctionCatalog) (backend : Backend) : Prop :=
  ∀ f ∈ c.forBackend backend, ∀ w ∈ f.wrappings, ∀ w' ∈ f.wrappings, ∀ t t', w.table f = .ok t →
    w'.table f = .ok t' →
    t.rows.map (·.binding) = t'.rows.map (·.binding)

/-- The wrappers of the functions that the backend has are named apart. -/
def NamesApart (c : FunctionCatalog) (backend : Backend) : Prop :=
  ((wrappingPairs (c.forBackend backend)).map fun pair => pair.1.wrapperName pair.2).Nodup

end FunctionCatalog

/-! ## Validation -/

namespace FunctionCatalog

variable {c : FunctionCatalog}

theorem checkPairs_eq_ok_iff {pairs : List (ForeignFunction × Wrapping)} :
    checkPairs pairs = .ok () ↔ ∀ pair ∈ pairs, pair.2.Derivable pair.1 := by
  induction pairs with
  | nil => simp [checkPairs]
  | cons pair rest ih =>
    obtain ⟨f, w⟩ := pair
    have hiff : (∃ derived, w.derive "" f = .ok derived) ↔ w.Derivable f :=
      Wrapping.exists_derive_iff
    rw [List.forall_mem_cons, checkPairs, ← hiff]
    cases w.derive "" f with
    | ok derived => simpa using ih
    | error fault => simp

/-- Validation accepts exactly the catalogs all of whose pairs can be derived. -/
theorem validate_eq_ok_iff : c.validate = .ok () ↔ ∀ f ∈ c.functions, ∀ w ∈ f.wrappings,
    w.Derivable f := by
  rw [validate, checkPairs_eq_ok_iff]
  constructor
  · intro h f hf w hw
    exact h (f, w) (mem_wrappingPairs_iff.mpr ⟨hf, hw⟩)
  · rintro h ⟨f, w⟩ hpair
    obtain ⟨hf, hw⟩ := mem_wrappingPairs_iff.mp hpair
    exact h f hf w hw

theorem derivable_iff (hnodup : ∀ f ∈ c.functions, (f.arguments.map (·.name)).Nodup) :
    c.Derivable ↔ ∀ f ∈ c.functions, ∀ w ∈ f.wrappings, w.Derivable f := by
  constructor
  · intro h f hf w hw
    obtain ⟨⟨t, htable⟩, hreturn⟩ := h f hf w hw
    obtain ⟨s, hsignature⟩ := ((table_fits htable).exists_signature_iff (hnodup f hf)).mpr hreturn
    exact ⟨t, s, htable, hsignature⟩
  · intro h f hf w hw
    obtain ⟨t, s, htable, hsignature⟩ := h f hf w hw
    exact ⟨⟨t, htable⟩, ((table_fits htable).exists_signature_iff (hnodup f hf)).mp ⟨s, hsignature⟩⟩

end FunctionCatalog

/-! ## Declarations -/

/-- Two tables of a function give the same declaration exactly when they bind its arguments alike.
-/
theorem declaration_eq_iff {f : ForeignFunction} {w w' : Wrapping} {t t' : ArgumentTable}
    (h : TableFits f w t)
    (h' : TableFits f w' t') (stem : String) :
    t.declaration stem f = t'.declaration stem f ↔ t.rows.map (·.binding) =
        t'.rows.map (·.binding) := by
  have hparams : ∀ rows : List Row,
      (rows.map fun r => (r.name, r.binding)) = (rows.map (·.name)).zip (rows.map (·.binding)) := by
    intro rows
    exact List.zip_map'.symm
  constructor
  · intro hsame
    have hbindings := congrArg (fun d : Declaration => d.params.map (·.2)) hsame
    simpa [ArgumentTable.declaration, Function.comp_def] using hbindings
  · intro hsame
    rw [ArgumentTable.declaration, ArgumentTable.declaration, hparams, hparams, h.rows.names,
      h'.rows.names, hsame]

/-! ## Units -/

namespace FunctionCatalog

variable {c : FunctionCatalog} {o : Options} {v : Variant}

/-- The pairs of an assembled unit bind alike and are named apart. -/
theorem binds_and_names_of_assemble {u : SourceUnit} (h : c.assemble o v = .ok u) :
    c.BindsAlike v.backend ∧ c.NamesApart v.backend := by
  have htaken := assemble_taken h
  refine ⟨?_, ?_⟩
  · intro f hf w hw w' hw' t t' htable htable'
    obtain ⟨d, -, hdeclares⟩ :=
      htaken.exists_declares (fun w hw => mem_wrappingPairs_iff.mpr ⟨hf, hw⟩)
        (List.ne_nil_of_mem hw)
    obtain ⟨q, hq, hdeclaration⟩ := hdeclares w hw
    obtain ⟨q', hq', hdeclaration'⟩ := hdeclares w' hw'
    obtain rfl := Except.ok.inj (htable.symm.trans hq)
    obtain rfl := Except.ok.inj (htable'.symm.trans hq')
    exact (declaration_eq_iff (table_fits htable) (table_fits htable') v.symbolStem).mp
      (hdeclaration.trans hdeclaration'.symm)
  · rw [NamesApart, ← htaken.map_names]
    exact htaken.names

/-- A declaration is refused only where another wrapping of its function has given another one. -/
theorem exists_other_of_declare {pairs : List (ForeignFunction × Wrapping)} {draft : Draft}
    {f : ForeignFunction}
    {w : Wrapping} {d : Declaration} {wrapper : Wrapper} (hnames : (c.functions.map (·.name)).Nodup)
    (hpairs : ∀ pair ∈ pairs, pair ∈ wrappingPairs (c.forBackend v.backend))
    (htaken : draft.Taken v pairs)
    (hf : f ∈ c.forBackend v.backend) (hderive : w.derive v.symbolStem f = .ok (d, wrapper))
    (hnone : draft.declare d = none) :
    ∃ w' ∈ f.wrappings, ∃ d' wrapper', w'.derive v.symbolStem f = .ok (d', wrapper') ∧ d' ≠ d := by
  obtain ⟨first, hfirst, hsymbol, hdiffer⟩ := Draft.declare_eq_none hnone
  obtain ⟨⟨f', w'⟩, hpair', wrapper', hderive'⟩ := htaken.declarations first hfirst
  obtain ⟨hf', hw'⟩ := mem_wrappingPairs_iff.mp (hpairs _ hpair')
  have hname : f'.name = f.name := by
    rw [(Wrapping.derive_names hderive').1, (Wrapping.derive_names hderive).1] at hsymbol
    exact String.append_right_inj _ |>.mp hsymbol
  -- symbols agree only within a function, since functions have distinct names
  obtain rfl :=
    List.inj_on_of_nodup_map hnames (mem_of_mem_forBackend hf') (mem_of_mem_forBackend hf) hname
  exact ⟨w', hw', first, wrapper', hderive', hdiffer⟩

/-- A declaration is refused only where two wrappings of a function do not bind alike. -/
theorem not_bindsAlike_of_declare {pairs : List (ForeignFunction × Wrapping)} {draft : Draft}
    {f : ForeignFunction}
    {w : Wrapping} {d : Declaration} {wrapper : Wrapper} (hnames : (c.functions.map (·.name)).Nodup)
    (hpairs : ∀ pair ∈ pairs, pair ∈ wrappingPairs (c.forBackend v.backend))
    (htaken : draft.Taken v pairs)
    (hpair : (f, w) ∈ wrappingPairs (c.forBackend v.backend))
    (hderive : w.derive v.symbolStem f = .ok (d, wrapper))
    (hnone : draft.declare d = none) : ¬ c.BindsAlike v.backend := by
  intro halike
  obtain ⟨hf, hw⟩ := mem_wrappingPairs_iff.mp hpair
  obtain ⟨w', hw', d', wrapper', hderive', hdiffer⟩ :=
    exists_other_of_declare hnames hpairs htaken hf hderive hnone
  obtain ⟨t, s, htable, -, rfl, -⟩ := Wrapping.derive_eq_ok_iff.mp hderive
  obtain ⟨t', s', htable', -, rfl, -⟩ := Wrapping.derive_eq_ok_iff.mp hderive'
  apply hdiffer
  rw [declaration_eq_iff (table_fits htable') (table_fits htable)]
  exact halike f hf w' hw' w hw t' t htable' htable

/-- Where every pair can be derived, a unit fails only over a declaration or a name, and then a
condition is broken. -/
theorem assemble_error_of_derivable (hderivable : ∀ f ∈ c.functions, ∀ w ∈ f.wrappings,
    w.Derivable f)
    (hnames : (c.functions.map (·.name)).Nodup) {e : GenerationError}
    (h : c.assemble o v = .error e) :
    ∃ f ∈ c.forBackend v.backend, ∃ w ∈ f.wrappings,
      e = .inFunction f.name (.declarationConflict (f.wrapperName w)) ∧ ¬ c.BindsAlike v.backend ∨
        e = .duplicateWrapper v.label (f.wrapperName w) ∧ ¬ c.NamesApart v.backend := by
  obtain ⟨read, f, w, after, draft, hpairs, htaken, hadd⟩ := assemble_eq_error h
  have hpair : (f, w) ∈ wrappingPairs (c.forBackend v.backend) := by
    rw [hpairs]
    exact List.mem_append_right _ List.mem_cons_self
  obtain ⟨hf, hw⟩ := mem_wrappingPairs_iff.mp hpair
  refine ⟨f, hf, w, hw, ?_⟩
  rcases Draft.add_eq_error hadd with ⟨fault, hfault, -⟩ | ⟨d, wrapper, hderive,
    ⟨hnone, rfl⟩ | ⟨⟨other, hother, hsame⟩, rfl⟩⟩
  · obtain ⟨pair, hok⟩ :=
      Wrapping.exists_derive_iff.mpr (hderivable f (mem_of_mem_forBackend hf) w hw)
    rw [hfault] at hok
    cases hok
  · rw [(Wrapping.derive_names hderive).2]
    refine Or.inl ⟨rfl, not_bindsAlike_of_declare hnames ?_ htaken hpair hderive hnone⟩
    intro pair hread
    rw [hpairs]
    exact List.mem_append_left _ hread
  · rw [(Wrapping.derive_names hderive).2] at hsame ⊢
    refine Or.inr ⟨rfl, ?_⟩
    intro hapart
    -- the wrapper that is there stems from a pair before this one
    rw [NamesApart, hpairs, List.map_append, List.map_cons, List.nodup_append] at hapart
    have hmem : other.signature.name ∈ read.map fun pair => pair.1.wrapperName pair.2 := by
      rw [← htaken.map_names]
      exact List.mem_map.mpr ⟨other, hother, rfl⟩
    exact hapart.2.2 _ hmem _ List.mem_cons_self hsame

/-- A unit is assembled exactly when its pairs bind alike and are named apart. -/
theorem exists_assemble_iff (hderivable : ∀ f ∈ c.functions, ∀ w ∈ f.wrappings, w.Derivable f)
    (hnames : (c.functions.map (·.name)).Nodup) :
    (∃ u, c.assemble o v = .ok u) ↔ c.BindsAlike v.backend ∧ c.NamesApart v.backend := by
  constructor
  · rintro ⟨u, hu⟩
    exact binds_and_names_of_assemble hu
  · rintro ⟨halike, hapart⟩
    apply exists_eq_ok
    intro e he
    obtain ⟨f, -, w, -, ⟨-, hnot⟩ | ⟨-, hnot⟩⟩ := assemble_error_of_derivable hderivable hnames he
    · exact hnot halike
    · exact hnot hapart

end FunctionCatalog

/-! ## Runs -/

theorem ParameterCatalog.mem_selected_iff {p : ParameterCatalog} {o : Options} {v : Variant} :
    v ∈ p.selected o ↔ v ∈ p.variants ∧ v.backend ∉ o.skip := by
  simp [selected]

/-- **A run succeeds exactly when the catalog can be derived and, for every variant that is not
skipped, the wrappings bind alike and are named apart.** Where the catalog can be derived, a failing
run reports the error of the first variant that fails, and that is a conflict of declarations or of
names. -/
theorem assembleAll_succeeds_iff {text : String} {c : FunctionCatalog}
    (hparse : FunctionCatalog.parse text = .ok c)
    (p : ParameterCatalog) (o : Options) :
    ((∃ units, c.assembleAll p o = .ok units) ↔
      c.Derivable ∧ ∀ v ∈ p.variants, v.backend ∉ o.skip → c.BindsAlike v.backend ∧
        c.NamesApart v.backend) ∧
    (c.Derivable → ∀ e, c.assembleAll p o = .error e →
      ∃ before v after, p.selected o = before ++ v :: after ∧
        (∀ earlier ∈ before, ∃ u, c.assemble o earlier = .ok u) ∧
        c.assemble o v = .error e ∧
        ∃ f ∈ c.forBackend v.backend, ∃ w ∈ f.wrappings,
          e = .inFunction f.name (.declarationConflict (f.wrapperName w)) ∨
            e = .duplicateWrapper v.label (f.wrapperName w)) := by
  have hnames := FunctionCatalog.nodup_names hparse
  have hderivable :=
    FunctionCatalog.derivable_iff fun f hf => FunctionCatalog.nodup_arguments hparse hf
  rw [hderivable]
  refine ⟨⟨?_, ?_⟩, ?_⟩
  · rintro ⟨units, h⟩
    rw [FunctionCatalog.assembleAll, bind_eq_ok_iff] at h
    obtain ⟨_, hvalid, hunits⟩ := h
    have hpairs := FunctionCatalog.validate_eq_ok_iff.mp hvalid
    refine ⟨hpairs, ?_⟩
    intro v hv hkept
    have hunit :=
      exists_mapM_eq_ok_iff.mp ⟨units, hunits⟩ v (ParameterCatalog.mem_selected_iff.mpr ⟨hv, hkept⟩)
    exact (FunctionCatalog.exists_assemble_iff hpairs hnames).mp hunit
  · rintro ⟨hpairs, hvariants⟩
    have hunits : ∃ units, (p.selected o).mapM (c.assemble o) = .ok units := by
      rw [exists_mapM_eq_ok_iff]
      intro v hv
      obtain ⟨hv, hkept⟩ := ParameterCatalog.mem_selected_iff.mp hv
      exact (FunctionCatalog.exists_assemble_iff hpairs hnames).mpr (hvariants v hv hkept)
    obtain ⟨units, hunits⟩ := hunits
    exact ⟨units, bind_eq_ok_iff.mpr ⟨(), FunctionCatalog.validate_eq_ok_iff.mpr hpairs, hunits⟩⟩
  · intro hpairs e h
    -- validation passes, so the error is that of a unit
    rw [FunctionCatalog.assembleAll, bind_eq_error_iff,
      FunctionCatalog.validate_eq_ok_iff.mpr hpairs] at h
    rcases h with h | ⟨_, -, h⟩
    · cases h
    · obtain ⟨before, v, after, hselected, hbefore, hv⟩ := mapM_eq_error_iff.mp h
      refine ⟨before, v, after, hselected, hbefore, hv, ?_⟩
      obtain ⟨f, hf, w, hw, ⟨rfl, -⟩ | ⟨rfl, -⟩⟩ :=
        FunctionCatalog.assemble_error_of_derivable hpairs hnames hv
      · exact ⟨f, hf, w, hw, Or.inl rfl⟩
      · exact ⟨f, hf, w, hw, Or.inr rfl⟩

/-- The sample can be generated for its portable variant, but not for the other one, where two
wrappers share a name. -/
theorem sample_run_fails_without_skip :
    FunctionCatalog.parse sampleText = .ok sampleCatalog ∧
      sampleCatalog.assembleAll sampleParameters { skip := [.avx2] } = .ok [sampleUnit] ∧
      sampleCatalog.assembleAll sampleParameters {} =
        .error (.duplicateWrapper "dilithium2/avx2" "open_at") ∧
      sampleCatalog.Derivable ∧ sampleCatalog.NamesApart .clean ∧
      ∃ before v after, sampleParameters.selected {} = before ++ v :: after ∧
        (∀ earlier ∈ before, ∃ u, sampleCatalog.assemble {} earlier = .ok u) ∧
        sampleCatalog.assemble {} v = .error (.duplicateWrapper "dilithium2/avx2" "open_at") := by
  have hskipped : sampleCatalog.assembleAll sampleParameters { skip := [.avx2] } =
    .ok [sampleUnit] := by decide +kernel
  have hfails : sampleCatalog.assembleAll sampleParameters {} =
      .error (.duplicateWrapper "dilithium2/avx2" "open_at") := by decide +kernel
  have hvariant : sampleVariant ∈ sampleParameters.variants := List.mem_cons_self
  obtain ⟨hderivable, hvariants⟩ :=
    (assembleAll_succeeds_iff parse_sampleText sampleParameters { skip := [.avx2] }).1.mp
    ⟨_, hskipped⟩
  obtain ⟨before, v, after, hselected, hbefore, hv, -⟩ :=
    (assembleAll_succeeds_iff parse_sampleText sampleParameters {}).2 hderivable _ hfails
  exact ⟨parse_sampleText, hskipped, hfails, hderivable,
    (hvariants sampleVariant hvariant (by decide)).2, before, v, after, hselected, hbefore, hv⟩

end Bindery
