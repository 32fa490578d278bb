/-
# Bindery.Proofs.Wrapper.Results -- a wrapper ends with what its signature announces.

The body of a wrapper is run whatever the foreign function does.  The run is followed stretch by
stretch: up to the call it has declared the buffers of the table and handed all of them over, so
after the call every output has been written; from there the return shape decides whether the
outputs are assumed to be initialised and returned.  No step is stuck, so nothing is read that is
not there, and what the wrapper ends with is what the signature announces.
-/
import Bindery.Catalog.Document
import Bindery.Proofs.Catalog.Accepted
import Bindery.Proofs.Wrapper.CallTyping
import Bindery.Proofs.Wrapper.Execution
import Bindery.Proofs.Wrapper.Signature

namespace Bindery

variable {V : Type}

/-! ## Up to the call -/

/-- The frame of a wrapper before its call. -/
def ArgumentTable.prepared (t : ArgumentTable) : Frame V :=
  (Frame.entry t.wrapperParams).declare t.buffers

/-- The frame of a wrapper after its call. -/
def ArgumentTable.answered (t : ArgumentTable) (effect : ForeignEffect V) (captured : Bool) :
    Frame V :=
  t.prepared.answer effect (Frame.handedOver (t.rows.map t.callArgument)) captured

namespace TableFits

variable {f : ForeignFunction} {w : Wrapping} {t : ArgumentTable} {effect : ForeignEffect V}
  {captured : Bool}
  {rest : List Statement}

/-- The storage of every argument is there before the call. -/
theorem accepts_of_mem (h : TableFits f w t) (hnodup : (f.arguments.map (·.name)).Nodup) {r : Row}
    (hr : r ∈ t.rows) :
    (t.prepared (V := V)).accepts (t.callArgument r) = true := by
  have hfits := h.storageFits hnodup hr
  rw [CallArgument.StorageFits] at hfits
  rw [Frame.accepts]
  cases hpassing : (t.callArgument r).passing with
  | value =>
    rw [hpassing] at hfits
    obtain ⟨text, -, hparam⟩ := hfits
    have hlookup : (t.prepared (V := V)).params.lookup (t.callArgument r).storage =
      some (.value text) := hparam
    simp only [hlookup]
  | borrow access =>
    rw [hpassing] at hfits
    obtain ⟨pointee, own, ownPointee, -, hparam, hexclusive, -⟩ := hfits
    have hlookup : (t.prepared (V := V)).params.lookup (t.callArgument r).storage =
      some (.reference own ownPointee) := hparam
    simp only [hlookup]
    exact decide_eq_true hexclusive
  | uninit =>
    rw [hpassing] at hfits
    obtain ⟨access, pointee, -, hbuffer, -⟩ := hfits
    have hmem : (t.callArgument r).storage ∈ t.buffers.map (·.1) :=
      List.mem_map_of_mem (mem_of_lookup_eq_some hbuffer)
    have hcontent : (t.prepared (V := V)).content (t.callArgument r).storage = .uninitialised :=
      if_pos hmem
    simp only [hcontent]

/-- A body runs up to its call and through it. -/
theorem run_call (h : TableFits f w t) (hnodup : (f.arguments.map (·.name)).Nodup)
    (symbol : String) :
    run effect (.entry t.wrapperParams) ((t.buffers.map fun b => .allocate b.1 b.2) ++
        .call symbol (t.rows.map t.callArgument) captured :: rest) =
      run effect (t.answered effect captured) rest := by
  rw [run_allocations rfl (h.nodup_buffers hnodup)]
  · apply run_next
    have hall : (t.rows.map t.callArgument).all (t.prepared (V := V)).accepts = true := by
      rw [List.all_eq_true]
      intro a ha
      obtain ⟨r, hr, rfl⟩ := List.mem_map.mp ha
      exact h.accepts_of_mem hnodup hr
    rw [Statement.exec, Frame.call]
    exact congrArg (Option.map Progress.next) (if_pos ⟨rfl, hall⟩)
  · intro b hb
    refine ⟨rfl, h.lookup_param_of_output hnodup ?_⟩
    rw [← h.buffers_names hnodup]
    exact List.mem_map_of_mem hb

/-- The call hands every output over, so each has been written. -/
theorem content_answered (h : TableFits f w t) (hnodup : (f.arguments.map (·.name)).Nodup)
    {name : String}
    (hname : name ∈ w.outputs) :
    (t.answered effect captured).content name = .written (effect.contents name) := by
  obtain ⟨r, type, -, hr, rfl, hrole, -⟩ := h.row_of_output hnodup hname
  obtain ⟨hstorage, hpassing⟩ := passing_of_output (ArgumentTable.storage_of_unmapped (t := t)
    (by rw [Row.isMapped, hrole])) hrole
  apply if_pos
  rw [Frame.handedOver, List.mem_map]
  refine ⟨t.callArgument r, List.mem_filter.mpr ⟨List.mem_map_of_mem hr, ?_⟩, hstorage⟩
  rw [hpassing]
  rfl

/-! ## After the call -/

/-- The outputs are assumed to be initialised. -/
theorem run_assumeInits (h : TableFits f w t) (hnodup : (f.arguments.map (·.name)).Nodup) :
    run effect (t.answered effect captured) (w.outputs.map .assumeInit ++ rest) =
      run effect ((t.answered effect captured).assume w.outputs) rest := by
  apply run_assumptions h.names.outputs_nodup
  · intro name _ hmem
    cases hmem
  · intro name hname
    exact ⟨effect.contents name, h.content_answered hnodup hname⟩

/-- The outputs can then be returned, each with what has been written into it and under its type. -/
theorem mapM_component (h : TableFits f w t) (hnodup : (f.arguments.map (·.name)).Nodup) :
    w.outputs.mapM ((t.answered effect captured).assume w.outputs).component =
      some (ReturnShape.components effect w.outputs t.outputTypes) := by
  have hcomponents : ReturnShape.components effect w.outputs t.outputTypes =
      t.buffers.map fun b => ⟨b.1, b.2, effect.contents b.1⟩ := by
    rw [ReturnShape.components, ArgumentTable.outputTypes_eq, ← h.buffers_names hnodup,
      List.zipWith_map, List.zipWith_self]
  rw [hcomponents, ← h.buffers_names hnodup]
  apply Frame.mapM_component
  intro b hb
  have hmem : b.1 ∈ w.outputs := by
    rw [← h.buffers_names hnodup]
    exact List.mem_map_of_mem hb
  have hwritten : (t.answered effect captured).content b.1 = .written (effect.contents b.1) :=
    h.content_answered hnodup hmem
  refine ⟨hwritten, lookup_eq_some_of_nodup (h.nodup_buffers hnodup) hb, ?_⟩
  rw [← h.buffers_names hnodup] at hmem
  exact hmem

/-- What follows the call ends with what the return shape announces.  All outputs are assumed to be
initialised before they are returned, and none is on failure. -/
theorem run_after_call (h : TableFits f w t) (hnodup : (f.arguments.map (·.name)).Nodup)
    {returns : ReturnShape}
    (htypes : returns.types = t.outputTypes) :
    ∃ assumed,
      run effect (t.answered effect (ArgumentTable.captures returns))
          (ArgumentTable.checks returns ++ w.outputs.map .assumeInit ++ ArgumentTable.endings
            w.outputs returns) =
        some ((t.answered effect (ArgumentTable.captures returns)).assume assumed,
          returns.announced effect w.outputs) ∧
      (returns.announced effect w.outputs = .failure → assumed = []) ∧
      (returns.announced effect w.outputs ≠ .failure → assumed = w.outputs) := by
  cases returns with
  -- without a convention nothing comes between the call and the assumptions
  | unit =>
    refine ⟨w.outputs, h.run_assumeInits hnodup, ?_, fun _ => rfl⟩
    intro hfailure
    cases hfailure
  | raw type =>
    refine ⟨w.outputs, (h.run_assumeInits hnodup).trans (run_stop rfl), ?_, fun _ => rfl⟩
    intro hfailure
    cases hfailure
  | outputs types =>
    obtain rfl : types = t.outputTypes := htypes
    refine ⟨w.outputs, (h.run_assumeInits hnodup).trans (run_stop ?_), ?_, fun _ => rfl⟩
    · rw [Statement.exec, Frame.finish, h.mapM_component hnodup]
      rfl
    · intro hfailure
      cases hfailure
  | result types convention =>
    cases convention
    obtain rfl : types = t.outputTypes := htypes
    have hstep : Statement.failUnlessZero.exec effect (t.answered effect true) =
        some (if effect.raw = 0 then .next (t.answered effect true) else .stop .failure) := rfl
    -- the raw value has been kept, and it decides whether the outputs are touched at all
    by_cases hraw : effect.raw = 0
    · rw [if_pos hraw] at hstep
      have hannounced : (ReturnShape.result t.outputTypes .zeroIsOk).announced effect w.outputs =
          .success (ReturnShape.components effect w.outputs t.outputTypes) := if_pos hraw
      rw [hannounced]
      refine ⟨w.outputs, (run_next hstep).trans ((h.run_assumeInits hnodup).trans (run_stop ?_)),
        ?_, fun _ => rfl⟩
      · rw [Statement.exec, Frame.finish, h.mapM_component hnodup]
        rfl
      · intro hfailure
        cases hfailure
    · rw [if_neg hraw] at hstep
      have hannounced : (ReturnShape.result t.outputTypes .zeroIsOk).announced effect w.outputs =
        .failure := if_neg hraw
      rw [hannounced]
      exact ⟨[], run_stop hstep, fun _ => rfl, fun hne => absurd rfl hne⟩

end TableFits

/-! ## Whole bodies -/

/-- **Every body ends with what its signature announces**, whatever the foreign function returns and
writes.  It ends in a sound frame and after one call; its buffers are the outputs, in the order in
which they are returned and under the types that the signature shows; and it assumes all of them to
be initialised unless it fails, and then none. -/
theorem body_ends_as_announced {text : String} {c : FunctionCatalog}
    (hparse : FunctionCatalog.parse text = .ok c)
    {f : ForeignFunction} (hf : f ∈ c.functions) {w : Wrapping} {t : ArgumentTable}
    (htable : w.table f = .ok t)
    {s : Signature} (hsignature : t.signature f w = .ok s) (symbol : String)
    (effect : ForeignEffect V) :
    ∃ final, run effect (.entry s.params) (t.body symbol s.returns) =
      some (final, s.returns.announced effect w.outputs) ∧
      final.Sound ∧ final.calls = 1 ∧
      final.buffers.map (·.1) = w.outputs ∧ final.buffers.map (·.2) = s.returns.types ∧
      (s.returns.announced effect w.outputs = .failure → final.assumed = []) ∧
      (s.returns.announced effect w.outputs ≠ .failure → final.assumed = w.outputs) := by
  have h := table_fits htable
  have hnodup := FunctionCatalog.nodup_arguments hparse hf
  obtain ⟨-, hparams, htypes⟩ := ArgumentTable.signature_eq_ok hsignature
  obtain ⟨assumed, hrun, hfailure, hsuccess⟩ := h.run_after_call hnodup htypes
  have hbody : run effect (.entry s.params) (t.body symbol s.returns) =
      some ((t.answered effect (ArgumentTable.captures s.returns)).assume assumed,
        s.returns.announced effect w.outputs) := by
    rw [hparams, t.body_eq, h.outputs_names hnodup, h.run_call hnodup]
    exact hrun
  refine ⟨_, hbody, run_sound (Frame.sound_entry s.params) hbody, rfl, ?_, ?_, hfailure, hsuccess⟩
  · exact h.buffers_names hnodup
  · rw [htypes, t.outputTypes_eq]
    rfl

/-- The table of the sample. -/
def sampleTable : ArgumentTable where
  rows := [⟨"m", .pointer .exclusive "Buf", .output, .pointer .exclusive "Buf"⟩,
    ⟨"n", .pointer .exclusive "u8", .output, .pointer .exclusive "u8"⟩,
    ⟨"s", .pointer .shared "Buf", .mapped 0 false, .pointer .shared "Buf"⟩,
      ⟨"k", .value "Key", .plain, .value "Key"⟩]
  returned := ["n", "m"]

/-- The signature of the sample. -/
def sampleSignature : Signature :=
  ⟨"open", none, [("k", .value "Key")], .result ["u8", "Buf"] .zeroIsOk⟩

/-- The wrapper of the sample returns its two buffers in the listed order where the raw value is
zero, and elsewhere it fails and touches neither of them. -/
theorem sample_ends_with_buffers :
    FunctionCatalog.parse sampleText = .ok sampleCatalog ∧
      sampleFunction ∈ sampleCatalog.functions ∧
      sampleWrapping.table sampleFunction = .ok sampleTable ∧
      sampleTable.signature sampleFunction sampleWrapping = .ok sampleSignature ∧
      (∃ final, run ⟨0, String.length⟩ (.entry sampleSignature.params)
        (sampleTable.body "open" sampleSignature.returns) =
        some (final, .success [⟨"n", "u8", 1⟩, ⟨"m", "Buf", 1⟩])) ∧
      ∃ final, run ⟨5, String.length⟩ (.entry sampleSignature.params)
        (sampleTable.body "open" sampleSignature.returns) =
        some (final, .failure) ∧ final.assumed = [] := by
  have hfunction : sampleFunction ∈ sampleCatalog.functions := List.mem_cons_self
  have htable : sampleWrapping.table sampleFunction = .ok sampleTable := by decide +kernel
  have hsignature : sampleTable.signature sampleFunction sampleWrapping =
    .ok sampleSignature := by decide +kernel
  obtain ⟨final, hrun, -⟩ :=
    body_ends_as_announced parse_sampleText hfunction htable hsignature "open" ⟨0, String.length⟩
  obtain ⟨final', hrun', -, -, -, -, hfailure, -⟩ :=
    body_ends_as_announced parse_sampleText hfunction htable hsignature "open" ⟨5, String.length⟩
  exact ⟨parse_sampleText, hfunction, htable, hsignature, ⟨final, hrun⟩, final',
    hrun', hfailure rfl⟩

end Bindery
