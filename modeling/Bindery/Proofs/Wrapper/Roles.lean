/-
# Bindery.Proofs.Wrapper.Roles -- what becomes of every argument.

A table gives each argument one of three roles, and everything behind it goes by the roles: the
parameters of a wrapper, the types that it returns and the storage that its call hands over are read
off the rows, and rows that lack what is asked for would be left out in silence.  None are.
`Assigned` says what a wrapping makes of one argument, wherever it stands; the parameters and the
returned types are stated of the function and the wrapping alone, so no row is lost, repeated or
moved on the way.
-/
import Bindery.Proofs.Wrapper.CallTyping
import Bindery.Proofs.Wrapper.Results

namespace Bindery

/-- **`Assigned f w t i r a`** -- the row `r` at position `i` has the role that the wrapping gives
to its argument, and `a` hands over the storage that goes with it: its own, or that of the row of
its source. -/
structure Assigned (f : ForeignFunction) (w : Wrapping) (t : ArgumentTable) (i : Nat) (r : Row)
    (a : CallArgument) : Prop where
  output : r.role = .output ↔ r.name ∈ w.outputs
  mapped : r.isMapped = true ↔ r.name ∈ w.sources.keys
  plain : r.role = .plain ↔ r.name ∉ w.outputs ∧ r.name ∉ w.sources.keys
  own : r.isMapped = false → a.storage = r.name
  /-- The position of a source is the only one that has the name, and it stands before. -/
  source : ∀ position cast, r.role = .mapped position cast → ∃ q, t.rows[position]? = some q ∧
    position < i ∧
    q.isMapped = false ∧ w.sources.find? r.name = some q.name ∧ a.storage = q.name ∧
    ∀ j b, f.arguments[j]? = some b → (b.name = q.name ↔ j = position)

namespace TableFits

variable {f : ForeignFunction} {w : Wrapping} {t : ArgumentTable} {i : Nat} {r : Row}

/-- An argument is mapped exactly if it is a key: outputs are none. -/
theorem isMapped_iff (h : TableFits f w t) (hr : r ∈ t.rows) :
    r.isMapped = true ↔ r.name ∈ w.sources.keys := by
  obtain ⟨_, a, -, hfits⟩ := h.rows.argument_of_mem hr
  rw [hfits.isMapped_iff, hfits.name, ← NameMap.mem_keys_iff, and_iff_right_iff_imp]
  intro hkey hlisted
  exact h.names.outputs_unmapped _ hlisted hkey

/-- The roles of the rows are those that the wrapping gives. -/
theorem plain_iff (h : TableFits f w t) (hr : r ∈ t.rows) :
    r.role = .plain ↔ r.name ∉ w.outputs ∧ r.name ∉ w.sources.keys := by
  obtain ⟨_, a, -, hfits⟩ := h.rows.argument_of_mem hr
  rw [hfits.plain_iff, hfits.name, NameMap.mem_keys_iff, ← Option.isSome_iff_exists,
    Option.not_isSome_iff_eq_none]

/-- The row that a mapped row refers to stands before it and is that of its source. -/
theorem exists_source (h : TableFits f w t) (hr : t.rows[i]? = some r)
    {position : Nat} {cast : Bool}
    (hrole : r.role = .mapped position cast) :
    ∃ q, t.rows[position]? = some q ∧ position < i ∧ q.isMapped = false ∧ w.sources.find? r.name =
        some q.name := by
  obtain ⟨a, -, hfits⟩ := h.rows.argument hr
  cases hfits with
  | output _ _ => cases hrole
  | plain _ _ => cases hrole
  | @mapped position source _ _ _ _ _ hfind hsource hunmapped _ _ _ _ =>
    cases hrole
    rw [List.getElem?_take] at hsource
    split at hsource
    · rename_i hlt
      exact ⟨source, hsource, hlt, hunmapped, hfind⟩
    · cases hsource

/-- A name stands at one position. -/
theorem name_eq_iff (h : TableFits f w t) (hnodup : (f.arguments.map (·.name)).Nodup)
    (hr : t.rows[i]? = some r) {j : Nat}
    {b : Argument} (hb : f.arguments[j]? = some b) : b.name = r.name ↔ j = i := by
  obtain ⟨a, ha, hfits⟩ := h.rows.argument hr
  rw [hfits.name]
  constructor
  · intro hsame
    have hj : j < (f.arguments.map (·.name)).length := by
      rw [List.length_map]
      exact (List.getElem?_eq_some_iff.mp hb).1
    apply (List.getElem?_inj hj hnodup).mp
    rw [List.getElem?_map, List.getElem?_map, ha, hb, Option.map_some, Option.map_some, hsame]
  · rintro rfl
    rw [Option.some.inj (hb.symm.trans ha)]

/-- Every row has the role and the storage that the wrapping gives to its argument. -/
theorem assigned (h : TableFits f w t) (hnodup : (f.arguments.map (·.name)).Nodup)
    (hr : t.rows[i]? = some r) :
    Assigned f w t i r (t.callArgument r) := by
  have hmem : r ∈ t.rows := List.mem_of_getElem? hr
  refine ⟨?_, h.isMapped_iff hmem, h.plain_iff hmem, ?_, ?_⟩
  · obtain ⟨a, -, hfits⟩ := h.rows.argument hr
    rw [hfits.output_iff, hfits.name]
  · intro hunmapped
    rw [ArgumentTable.callArgument, ArgumentTable.storage_of_unmapped hunmapped]
  · intro position cast hrole
    obtain ⟨q, hq, hlt, hunmapped, hfind⟩ := h.exists_source hr hrole
    have hstorage : t.storage r = q := by
      rw [ArgumentTable.storage, hrole]
      simp only [List.getD_eq_getElem?_getD, hq, Option.getD_some]
    refine ⟨q, hq, hlt, hunmapped, hfind, ?_, fun j b hb => h.name_eq_iff hnodup hq hb⟩
    rw [ArgumentTable.callArgument, hstorage]

/-- The parameters of a wrapper are the arguments that are neither outputs nor mapped, in their
order. -/
theorem wrapperParams_eq (h : TableFits f w t) :
    t.wrapperParams = (f.arguments.filter fun a => a.name ∉ w.outputs ∧
        a.name ∉ w.sources.keys).map fun a =>
      (a.name, a.type.toParam) := by
  have hplain : t.plain = t.rows.filter fun r => r.name ∉ w.outputs ∧ r.name ∉ w.sources.keys := by
    apply List.filter_congr
    intro r hr
    rw [Bool.eq_iff_iff, beq_iff_eq, decide_eq_true_iff]
    exact h.plain_iff hr
  -- what makes a row plain and what it shows are its name and its type, which are those of its
  -- argument
  calc t.wrapperParams
      = (t.rows.filter fun r => r.name ∉ w.outputs ∧ r.name ∉ w.sources.keys).map fun r =>
          (r.name, r.declared.toParam) := by
        rw [t.wrapperParams_eq, hplain]
    _ = ((t.rows.map fun r => (r.name, r.declared)).filter fun p => p.1 ∉ w.outputs ∧
      p.1 ∉ w.sources.keys).map
          fun p => (p.1, p.2.toParam) := by
        rw [List.filter_map, List.map_map]
        rfl
    _ = ((f.arguments.map fun a => (a.name, a.type)).filter fun p => p.1 ∉ w.outputs ∧
      p.1 ∉ w.sources.keys).map
          fun p => (p.1, p.2.toParam) := by
        rw [h.rows.map_eq]
    _ = (f.arguments.filter fun a => a.name ∉ w.outputs ∧ a.name ∉ w.sources.keys).map fun a =>
        (a.name, a.type.toParam) := by
        rw [List.filter_map, List.map_map]
        rfl

/-- The types that a wrapper returns are those that its outputs point to, in the listed order. -/
theorem forall₂_outputTypes (h : TableFits f w t) (hnodup : (f.arguments.map (·.name)).Nodup) :
    List.Forall₂ (fun name type => ∃ a ∈ f.arguments, a.name = name ∧ a.type.pointee? = some type)
        w.outputs t.outputTypes := by
  rw [← h.buffers_names hnodup, t.outputTypes_eq, List.forall₂_map_left_iff,
    List.forall₂_map_right_iff, List.forall₂_same]
  intro buffer hbuffer
  obtain ⟨r, hr, hreturned⟩ := List.mem_filterMap.mp hbuffer
  obtain ⟨type, htype, rfl⟩ := Option.map_eq_some_iff.mp hreturned
  obtain ⟨name, hname, hrow⟩ := List.mem_filterMap.mp hr
  obtain ⟨i, a, ha, hfits⟩ := h.rows.argument_of_mem (mem_of_find?_key_eq_some hrow).1
  refine ⟨a, List.mem_of_getElem? ha, hfits.name.symm, ?_⟩
  rw [← hfits.declared]
  rw [Row.returned?] at htype
  split at htype
  · exact htype
  · cases htype

end TableFits

/-- **A table partitions the arguments of a function and keeps their order.** It has one row for
every argument, in order; each argument is an output, mapped or plain as the wrapping says, and the
one call of a body hands over the storage that goes with its role.  The outputs come in the listed
order, none lost and none repeated.  The parameters of the wrapper are the plain arguments in order,
and the types that it returns are those that the outputs point to, in the listed order. -/
theorem table_partitions_arguments {f : ForeignFunction} {w : Wrapping} {t : ArgumentTable}
    (hnodup : (f.arguments.map (·.name)).Nodup) (htable : w.table f = .ok t) :
    t.rows.map (fun r => (r.name, r.declared)) = f.arguments.map (fun a => (a.name, a.type)) ∧
    (∀ i r, t.rows[i]? = some r → Assigned f w t i r (t.callArgument r)) ∧
    (∀ symbol returns, ∃ captured,
      (t.body symbol returns).filter Statement.isCall =
        [.call symbol (t.rows.map t.callArgument) captured]) ∧
    (t.outputs.map (·.name) = w.outputs ∧ w.outputs.Nodup ∧ ∀ r ∈ t.outputs, r ∈ t.rows) ∧
    (t.wrapperParams = (f.arguments.filter fun a => a.name ∉ w.outputs ∧
        a.name ∉ w.sources.keys).map fun a =>
      (a.name, a.type.toParam)) ∧
    List.Forall₂ (fun name type => ∃ a ∈ f.arguments, a.name = name ∧ a.type.pointee? = some type)
      w.outputs t.outputTypes ∧
    ∀ s, t.signature f w = .ok s → s.params = t.wrapperParams ∧ s.returns.types =
        t.outputTypes := by
  have h : TableFits f w t := table_fits htable
  refine ⟨h.rows.map_eq, fun i r hr => h.assigned hnodup hr, fun symbol returns =>
    ⟨_, t.body_calls symbol returns⟩, ?_, h.wrapperParams_eq, h.forall₂_outputTypes hnodup,
      fun s hs => (ArgumentTable.signature_eq_ok hs).2⟩
  refine ⟨h.outputs_names hnodup, h.names.outputs_nodup, fun r hr => ?_⟩
  obtain ⟨name, -, hrow⟩ := List.mem_filterMap.mp hr
  exact List.mem_of_find?_eq_some hrow

/-- In the sample the third argument is passed as the first, which is returned second. -/
theorem sample_table_partitions_arguments :
    (sampleFunction.arguments.map (·.name)).Nodup ∧ sampleWrapping.table sampleFunction =
    .ok sampleTable ∧
      sampleTable.outputs.map (·.name) = ["n", "m"] ∧ sampleTable.wrapperParams =
        [("k", .value "Key")] ∧
      ∀ r, sampleTable.rows[2]? = some r → Assigned sampleFunction sampleWrapping sampleTable 2 r
          (sampleTable.callArgument r) := by
  have hnodup : (sampleFunction.arguments.map (·.name)).Nodup := by decide
  have htable : sampleWrapping.table sampleFunction = .ok sampleTable := by decide +kernel
  obtain ⟨-, hassigned, -, ⟨houtputs, -, -⟩, hparams, -, -⟩ :=
    table_partitions_arguments hnodup htable
  exact ⟨hnodup, htable, houtputs, hparams.trans (by decide), hassigned 2⟩

end Bindery
