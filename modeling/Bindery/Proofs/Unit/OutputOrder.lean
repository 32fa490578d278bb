/-
# Bindery.Proofs.Unit.OutputOrder -- the order of the outputs is that of the results.

A wrapping lists its outputs, and whoever calls the wrapper gets them in this order.  Everything
else asks only which names are listed: whether the pair can be derived, what the rows are, and so
the declaration, the parameters and the call.  So another order of the same names gives the same
pair but for the order of the buffers, of the assumptions, of the returned names and of their types;
and these are all images of the list of outputs, each under one function for either order, so
nothing is paired up anew.
-/
import Bindery.Proofs.Unit.Drafts
import Bindery.Proofs.Wrapper.Acceptance
import Bindery.Proofs.Wrapper.Results

namespace Bindery

/-! ## Other orders -/

/-- The wrapping with these outputs in the place of its own. -/
def Wrapping.withOutputs (w : Wrapping) (outputs : List String) : Wrapping :=
  { w with outputs }

/-- The return shape with these types in the place of its own. -/
def ReturnShape.withTypes (types : List String) : ReturnShape → ReturnShape
  | .unit => .unit
  | .raw type => .raw type
  | .outputs _ => .outputs types
  | .result _ convention => .result types convention

namespace Wrapping

variable {f : ForeignFunction} {w : Wrapping} {outputs : List String}

/-- Names fit in any order. -/
theorem NamesFit.withOutputs (h : w.NamesFit f) (hperm : w.outputs.Perm outputs) :
    (w.withOutputs outputs).NamesFit f where
  convention := h.convention
  outputs_nodup := hperm.nodup_iff.mp h.outputs_nodup
  outputs_declared name hname := h.outputs_declared name (hperm.mem_iff.mpr hname)
  outputs_unmapped name hname := h.outputs_unmapped name (hperm.mem_iff.mpr hname)
  mapped_declared := h.mapped_declared

/-- A wrapping fits in any order of its outputs. -/
theorem Fits.withOutputs (h : w.Fits f) (hperm : w.outputs.Perm outputs) :
    (w.withOutputs outputs).Fits f where
  toNamesFit := h.toNamesFit.withOutputs hperm
  outputs_pointers a ha hlisted := h.outputs_pointers a ha (hperm.mem_iff.mpr hlisted)
  sources_fit name source hsource := by
    obtain ⟨hbefore, hunmapped, htypes⟩ := h.sources_fit name source hsource
    refine ⟨hbefore, hunmapped, fun a ha b hb haname hbname => ?_⟩
    obtain ⟨access, sourceAccess, pointee, sourcePointee, hatype, hbtype, hagree, halias⟩ :=
      htypes a ha b hb haname hbname
    refine ⟨access, sourceAccess, pointee, sourcePointee, hatype, hbtype, hagree, ?_⟩
    rintro ⟨hexclusive, hshared, hunlisted⟩
    exact halias ⟨hexclusive, hshared, fun hlisted => hunlisted (hperm.mem_iff.mp hlisted)⟩

/-- The row of an argument goes by whether it is listed, not by where. -/
theorem row_withOutputs (hperm : w.outputs.Perm outputs) (above : List Row) (a : Argument) :
    row f (w.withOutputs outputs) above a = row f w above a := by
  rw [row, row, show (w.withOutputs outputs).outputs = outputs from rfl, ← hperm.contains_eq]
  rfl

/-- So do all rows. -/
theorem addRows_withOutputs (hperm : w.outputs.Perm outputs) (args : List Argument) :
    ∀ above, addRows f (w.withOutputs outputs) above args = addRows f w above args := by
  induction args with
  | nil => exact fun _ => rfl
  | cons a rest ih =>
    intro above
    rw [addRows, addRows, row_withOutputs hperm]
    exact bind_congr fun r => ih (above ++ [r])

/-- Where there is a table, there is one with the same rows for any order. -/
theorem table_withOutputs {t : ArgumentTable} (hnodup : (f.arguments.map (·.name)).Nodup)
    (hperm : w.outputs.Perm outputs)
    (h : w.table f = .ok t) : (w.withOutputs outputs).table f = .ok ⟨t.rows, outputs⟩ := by
  obtain ⟨t', h'⟩ := (exists_table_iff hnodup).mpr (((table_fits h).fits hnodup).withOutputs hperm)
  rw [h']
  simp only [table, bind_eq_ok_iff, pure_eq_ok_iff] at h h'
  obtain ⟨_, -, rows, hrows, rfl⟩ := h
  obtain ⟨_, -, rows', hrows', rfl⟩ := h'
  rw [addRows_withOutputs hperm] at hrows'
  rw [Except.ok.inj (hrows'.symm.trans hrows)]
  rfl

end Wrapping

/-! ## What is read off the list -/

namespace ReturnShape

variable (returns : ReturnShape) (types : List String)

/-- A shape has its own types. -/
theorem withTypes_eq_self {types : List String} (h : returns.types = types) :
    returns.withTypes types = returns := by
  subst h
  cases returns <;> rfl

@[simp] theorem checks_withTypes :
    ArgumentTable.checks (returns.withTypes types) = ArgumentTable.checks returns := by
  cases returns with
  | result _ convention => cases convention; rfl
  | _ => rfl

@[simp] theorem captures_withTypes :
    ArgumentTable.captures (returns.withTypes types) = ArgumentTable.captures returns := by
  cases returns <;> rfl

@[simp] theorem endings_withTypes (names : List String) :
    ArgumentTable.endings names (returns.withTypes types) =
        ArgumentTable.endings names returns := by
  cases returns <;> rfl

end ReturnShape

namespace ArgumentTable

/-- The type of the buffer of an output; empty for what is none. -/
def bufferType (t : ArgumentTable) (name : String) : String :=
  ((t.row? name).bind Row.returned?).getD ""

/-- Other types make the same shape, if there are any under the same condition. -/
theorem returnShape_withTypes {wrapper : String} {types types' : List String}
    {convention : Option ResultConvention}
    {type : Option ForeignType} {returns : ReturnShape} (hempty : types'.isEmpty = types.isEmpty)
    (h : returnShape wrapper types convention type = .ok returns) :
    returnShape wrapper types' convention type = .ok (returns.withTypes types') := by
  unfold returnShape at h ⊢
  rw [hempty]
  split at h
  · cases h
    rfl
  · cases h
  · split at h
    · rename_i hnone
      cases h
      rw [if_pos hnone]
      rfl
    · cases h
  · split at h
    · rename_i hnone
      cases h
      rw [if_pos hnone]
      rfl
    · rename_i hsome
      cases h
      rw [if_neg hsome]
      rfl

end ArgumentTable

/-- **`x.Lists shape type call outputs`** -- the wrapper returns in this shape; it allocates a
buffer of its type for each of these outputs, makes this call, takes the buffers for initialised and
returns them, all in the order of the list, and its signature shows their types in the same order.
-/
structure Wrapper.Lists (shape : ReturnShape) (type : String → String) (call : Statement)
    (outputs : List String)
    (x : Wrapper) : Prop where
  returns : x.signature.returns = shape.withTypes (outputs.map type)
  types : x.signature.returns.types = outputs.map type
  body : x.body = outputs.map (fun name => .allocate name (type name)) ++ call ::
    (ArgumentTable.checks shape ++ outputs.map .assumeInit ++ ArgumentTable.endings outputs shape)

namespace TableFits

variable {f : ForeignFunction} {w : Wrapping} {t : ArgumentTable} {s : Signature}

/-- The buffers are the outputs with their types, in the listed order. -/
theorem buffers_eq (h : TableFits f w t) (hnodup : (f.arguments.map (·.name)).Nodup) :
    t.buffers = w.outputs.map fun name => (name, t.bufferType name) := by
  rw [ArgumentTable.buffers, ArgumentTable.outputs, h.returned,
    List.filterMap_filterMap, ← List.filterMap_eq_map]
  apply List.filterMap_congr
  intro name hname
  obtain ⟨r, type, hrow, -, rfl, -, htype⟩ := h.row_of_output hnodup hname
  simp [ArgumentTable.bufferType, hrow, htype]

/-- And so are the returned types. -/
theorem outputTypes_eq (h : TableFits f w t) (hnodup : (f.arguments.map (·.name)).Nodup) :
    t.outputTypes = w.outputs.map t.bufferType := by
  rw [t.outputTypes_eq, h.buffers_eq hnodup, List.map_map]
  rfl

/-- What a table gives lists the outputs of its wrapping. -/
theorem lists (h : TableFits f w t) (hnodup : (f.arguments.map (·.name)).Nodup)
    (hsignature : t.signature f w = .ok s)
    {shape : ReturnShape} (hreturns : s.returns = shape.withTypes (w.outputs.map t.bufferType))
    (symbol : String) :
    Wrapper.Lists shape t.bufferType (.call symbol (t.rows.map t.callArgument)
      (ArgumentTable.captures shape)) w.outputs
      ⟨s, t.body symbol s.returns⟩ := by
  obtain ⟨-, -, htypes⟩ := ArgumentTable.signature_eq_ok hsignature
  refine ⟨hreturns, htypes.trans (h.outputTypes_eq hnodup), ?_⟩
  show t.body symbol s.returns = _
  rw [t.body_eq, h.buffers_eq hnodup, h.outputs_names hnodup, List.map_map, hreturns,
    ReturnShape.captures_withTypes, ReturnShape.checks_withTypes, ReturnShape.endings_withTypes]
  rfl

/-- Where a table gives a signature, the table with the same rows gives one for any order, with the
types in this order. -/
theorem signature_withOutputs {outputs : List String} (h : TableFits f w t)
    (h' : TableFits f (w.withOutputs outputs) ⟨t.rows, outputs⟩)
    (hnodup : (f.arguments.map (·.name)).Nodup)
    (hperm : w.outputs.Perm outputs) (hsignature : t.signature f w = .ok s) :
    (⟨t.rows, outputs⟩ : ArgumentTable).signature f (w.withOutputs outputs) =
      .ok { s with returns := s.returns.withTypes (outputs.map t.bufferType) } := by
  have htypes : (⟨t.rows, outputs⟩ : ArgumentTable).outputTypes = outputs.map t.bufferType :=
    h'.outputTypes_eq hnodup
  simp only [ArgumentTable.signature, bind_eq_ok_iff, pure_eq_ok_iff] at hsignature ⊢
  obtain ⟨returns, hreturns, rfl⟩ := hsignature
  refine ⟨_, ArgumentTable.returnShape_withTypes ?_ hreturns, ?_⟩
  · rw [h.outputTypes_eq hnodup, htypes, List.isEmpty_map, List.isEmpty_map, hperm.isEmpty_eq]
  · rw [htypes]
    rfl

end TableFits

/-! ## Both orders -/

/-- A pair that can be derived can be derived in any order of its outputs, with the same results but
for this order. -/
theorem Wrapping.derive_withOutputs {f : ForeignFunction} {w : Wrapping} {outputs : List String}
    {stem : String} {d : Declaration}
    {x : Wrapper} (hnodup : (f.arguments.map (·.name)).Nodup) (hperm : w.outputs.Perm outputs)
    (h : w.derive stem f = .ok (d, x)) :
    ∃ rows type call x', w.table f = .ok ⟨rows, w.outputs⟩ ∧ (w.withOutputs outputs).table f =
      .ok ⟨rows, outputs⟩ ∧
      (w.withOutputs outputs).derive stem f = .ok (d, x') ∧
      x'.signature = { x.signature with returns := x'.signature.returns } ∧ call.isCall = true ∧
      x.Lists x.signature.returns type call w.outputs ∧
          x'.Lists x.signature.returns type call outputs := by
  obtain ⟨t, s, htable, hsignature, rfl, rfl⟩ := derive_eq_ok_iff.mp h
  have htable' := table_withOutputs hnodup hperm htable
  have hfits := table_fits htable
  have hfits' := table_fits htable'
  have hsignature' := hfits.signature_withOutputs hfits' hnodup hperm hsignature
  have hown : s.returns = s.returns.withTypes (w.outputs.map t.bufferType) := by
    rw [s.returns.withTypes_eq_self]
    rw [(ArgumentTable.signature_eq_ok hsignature).2.2, hfits.outputTypes_eq hnodup]
  refine ⟨t.rows, t.bufferType, _, _, ?_, htable', derive_eq_ok_iff.mpr ⟨_, _, htable', hsignature',
    rfl, rfl⟩, rfl, rfl, hfits.lists hnodup hsignature hown (stem ++ f.name),
      hfits'.lists hnodup hsignature' rfl (stem ++ f.name)⟩
  rw [htable, ← hfits.returned]

/-- **Reordering the outputs only reorders the results.** Of two wrappings that list the same
outputs in different orders, both can be derived or neither; and if they can, their rows, their
declarations and all of their signatures but the returned types are the same, and so is the call.
Each wrapper allocates its outputs, takes them for initialised, and returns and types them in its
own order, where one function gives the types for both. -/
theorem reordering_outputs_only_reorders {f : ForeignFunction} {w : Wrapping}
    {outputs : List String}
    (hnodup : (f.arguments.map (·.name)).Nodup) (hperm : w.outputs.Perm outputs) (stem : String) :
    ((∃ pair, w.derive stem f = .ok pair) ↔ ∃ pair,
    (w.withOutputs outputs).derive stem f = .ok pair) ∧
    ∀ d x, w.derive stem f = .ok (d, x) →
      ∃ rows type call x', w.table f = .ok ⟨rows, w.outputs⟩ ∧ (w.withOutputs outputs).table f =
        .ok ⟨rows, outputs⟩ ∧
        (w.withOutputs outputs).derive stem f = .ok (d, x') ∧
        x'.signature = { x.signature with returns := x'.signature.returns } ∧ call.isCall = true ∧
        x.Lists x.signature.returns type call w.outputs ∧
            x'.Lists x.signature.returns type call outputs := by
  refine ⟨⟨?_, ?_⟩, fun d x h => Wrapping.derive_withOutputs hnodup hperm h⟩
  · rintro ⟨⟨d, x⟩, h⟩
    obtain ⟨_, _, _, x', -, -, h', -⟩ := Wrapping.derive_withOutputs hnodup hperm h
    exact ⟨_, h'⟩
  · -- the first order is a reordering of the second
    have hperm' : (w.withOutputs outputs).outputs.Perm w.outputs := hperm.symm
    rintro ⟨⟨d, x⟩, h⟩
    obtain ⟨_, _, _, x', -, -, h', -⟩ := Wrapping.derive_withOutputs hnodup hperm' h
    exact ⟨_, h'⟩

/-- In the other order the sample returns its buffers the other way round, each under its own type.
-/
theorem sample_reordered :
    (sampleFunction.arguments.map (·.name)).Nodup ∧ sampleWrapping.outputs.Perm ["m", "n"] ∧
      ∃ d x x', sampleWrapping.derive "P_" sampleFunction = .ok (d, x) ∧
        (sampleWrapping.withOutputs ["m", "n"]).derive "P_" sampleFunction = .ok (d, x') ∧
        x.signature.returns = .result ["u8", "Buf"] .zeroIsOk ∧ x'.signature.returns =
          .result ["Buf", "u8"] .zeroIsOk ∧
        ∃ type call, x.Lists x.signature.returns type call ["n", "m"] ∧
            x'.Lists x.signature.returns type call ["m", "n"] := by
  have hnodup : (sampleFunction.arguments.map (·.name)).Nodup := by decide
  have hperm : sampleWrapping.outputs.Perm ["m", "n"] := List.Perm.swap "m" "n" []
  have h : sampleWrapping.derive "P_" sampleFunction =
    .ok (sampleTable.declaration "P_" sampleFunction,
      ⟨sampleSignature, sampleTable.body "P_open" sampleSignature.returns⟩) := by decide +kernel
  obtain ⟨-, hreorder⟩ := reordering_outputs_only_reorders hnodup hperm "P_"
  obtain ⟨rows, type, call, x', -, -, h', -, -, hlists, hlists'⟩ := hreorder _ _ h
  refine ⟨hnodup, hperm, _, _, x', h, h', rfl, ?_, type, call, hlists, hlists'⟩
  -- the types of the first order are known, so those of the second are
  have htypes : ["u8", "Buf"] = [type "n", type "m"] := hlists.types
  rw [hlists'.returns]
  show ReturnShape.result [type "m", type "n"] .zeroIsOk = _
  obtain ⟨hn, hm⟩ := List.cons_eq_cons.mp htypes
  rw [← hn, ← List.head_eq_of_cons_eq hm]

end Bindery
