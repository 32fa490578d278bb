/-
# Bindery.Proofs.Unit.Casts -- asserting casts adds casts and nothing else.

A wrapping either asks that an argument and its source point to the same type, or the catalog
asserts that they may be cast.  Where the stricter rule is met, the other one makes no difference
but for the casts themselves: both scans go in step, and their rows differ in the cast flags alone.
So the declaration and the signature are the same, and so is the body, except that under the second
rule every mapped argument of the call is cast to its declared type, which is that of the catalog.
-/
import Bindery.Proofs.Unit.Drafts
import Bindery.Proofs.Wrapper.Bindings
import Bindery.Proofs.Wrapper.Roles
import Mathlib.Data.List.GetD

namespace Bindery

/-! ## Casts -/

/-- The wrapping under the rule that the catalog asserts casts. -/
def Wrapping.asserted (w : Wrapping) : Wrapping :=
  { w with pointees := .asserted }

/-- The row with its cast, if it reuses the storage of another. -/
def Row.asserted (r : Row) : Row :=
  { r with role := match r.role with
      | .mapped source _ => .mapped source true
      | role => role }

/-- The table with all its casts. -/
def ArgumentTable.asserted (t : ArgumentTable) : ArgumentTable :=
  ⟨t.rows.map Row.asserted, t.returned⟩

/-- The statement with these casts in the place of those that its call has. -/
def Statement.withCasts (casts : List (Option ForeignType)) : Statement → Statement
  | .call symbol arguments captured =>
    .call symbol (List.zipWith (fun (a : CallArgument) cast => { a with cast := cast }) arguments
      casts) captured
  | s => s

/-- Statements that do not call keep what they are. -/
theorem Statement.map_withCasts {ss : List Statement} (casts : List (Option ForeignType))
    (h : ∀ s ∈ ss, s.isCall = false) :
    ss.map (withCasts casts) = ss := by
  rw [List.map_congr_left (g := id), List.map_id]
  intro s hs
  cases s with
  | call symbol arguments captured => cases h _ hs
  | allocate name type => rfl
  | failUnlessZero => rfl
  | assumeInit name => rfl
  | finish ending => rfl

/-! ## Rows in step -/

namespace Row

variable (r : Row)

@[simp] theorem asserted_name : r.asserted.name = r.name := rfl

@[simp] theorem asserted_declared : r.asserted.declared = r.declared := rfl

@[simp] theorem asserted_binding : r.asserted.binding = r.binding := rfl

@[simp] theorem asserted_role_output_iff : r.asserted.role = .output ↔ r.role = .output := by
  cases hrole : r.role <;> simp [asserted, hrole]

@[simp] theorem asserted_role_plain_iff : r.asserted.role = .plain ↔ r.role = .plain := by
  cases hrole : r.role <;> simp [asserted, hrole]

@[simp] theorem asserted_isMapped : r.asserted.isMapped = r.isMapped := by
  cases hrole : r.role <;> simp [asserted, isMapped, hrole]

@[simp] theorem asserted_param? : r.asserted.param? = r.param? := by
  cases hrole : r.role <;> simp [asserted, param?, hrole]

@[simp] theorem asserted_returned? : r.asserted.returned? = r.returned? := by
  cases hrole : r.role <;> simp [asserted, returned?, hrole]

end Row

namespace Wrapping

variable {f : ForeignFunction} {w : Wrapping} {above rows : List Row} {a : Argument} {r : Row}

/-- A mapped row that is made under either rule is made with its cast where casts are asserted. -/
theorem mappedRow_asserted {source : String} (h : mappedRow f w above a source = .ok r) :
    mappedRow f w.asserted (above.map Row.asserted) a source = .ok r.asserted := by
  rw [mappedRow_eq] at h ⊢
  simp only [bind_eq_ok_iff, need_eq_ok_iff, reject_eq_ok_iff, pure_eq_ok_iff] at h ⊢
  obtain ⟨position, hposition, row, hrow, _, hmapped, pointee, hpointee, sourcePointee,
    hsourcePointee, _, hagree, _, halias, rfl⟩ := h
  have hposition' : (above.map Row.asserted).findIdx? (·.name == source) = some position := by
    rw [List.findIdx?_map]
    exact hposition
  have hrow' : (above.map Row.asserted)[position]? = some row.asserted := by
    rw [List.getElem?_map, hrow]
    rfl
  refine ⟨position, hposition', row.asserted, hrow',
    (), by simpa using hmapped, pointee, hpointee, sourcePointee, hsourcePointee, (), fun hboth =>
    PointeeRule.noConfusion hboth.1, (), by simpa using halias, ?_⟩
  simp only [Row.asserted_role_output_iff]
  rfl

/-- A row that is made under either rule is made with its cast where casts are asserted. -/
theorem row_asserted (h : row f w above a = .ok r) :
    row f w.asserted (above.map Row.asserted) a = .ok r.asserted := by
  rw [row] at h ⊢
  have houtputs : w.asserted.outputs = w.outputs := rfl
  have hsources : w.asserted.sources = w.sources := rfl
  rw [houtputs, hsources]
  split at h
  · rename_i hlisted
    rw [if_pos hlisted]
    cases htype : a.type with
    | value text =>
      rw [htype] at h
      cases h
    | pointer access pointee =>
      rw [htype] at h
      cases h
      rfl
  · rename_i hlisted
    rw [if_neg hlisted]
    cases hsource : w.sources.find? a.name with
    | none =>
      rw [hsource] at h
      cases h
      rfl
    | some source =>
      rw [hsource] at h
      exact mappedRow_asserted h

/-- Both scans go in step. -/
theorem addRows_asserted {args : List Argument} (h : addRows f w above args = .ok rows) :
    addRows f w.asserted (above.map Row.asserted) args = .ok (rows.map Row.asserted) := by
  induction args generalizing above with
  | nil =>
    cases h
    rfl
  | cons a rest ih =>
    rw [addRows, bind_eq_ok_iff] at h ⊢
    obtain ⟨r, hr, hrest⟩ := h
    refine ⟨r.asserted, row_asserted hr, ?_⟩
    have hstep := ih hrest
    rwa [List.map_append, List.map_singleton] at hstep

/-- The names are checked alike under both rules. -/
theorem checkNames_asserted (f : ForeignFunction) (w : Wrapping) :
    checkNames f w.asserted = checkNames f w := by
  have houtputs : ∀ names seen, checkOutputs f w.asserted seen names =
      checkOutputs f w seen names := by
    intro names
    induction names with
    | nil => exact fun _ => rfl
    | cons name rest ih =>
      intro seen
      rw [checkOutputs, checkOutputs, ih]
      rfl
  simp only [checkNames, houtputs]
  rfl

/-- Where there is a table under either rule, there is the same with its casts where casts are
asserted. -/
theorem table_asserted {t : ArgumentTable} (h : w.table f = .ok t) :
    w.asserted.table f = .ok t.asserted := by
  simp only [table, bind_eq_ok_iff, pure_eq_ok_iff, checkNames_asserted] at h ⊢
  obtain ⟨_, hnames, rows, hrows, rfl⟩ := h
  exact ⟨(), hnames, rows.map Row.asserted, addRows_asserted hrows, rfl⟩

end Wrapping

/-! ## What is read off the rows -/

namespace ArgumentTable

variable (t : ArgumentTable)

theorem row?_asserted (name : String) : t.asserted.row? name = (t.row? name).map Row.asserted := by
  rw [row?, asserted, List.find?_map]
  rfl

theorem outputs_asserted : t.asserted.outputs = t.outputs.map Row.asserted := by
  rw [outputs, outputs, List.map_filterMap]
  apply List.filterMap_congr
  intro name _
  exact t.row?_asserted name

theorem outputTypes_asserted : t.asserted.outputTypes = t.outputTypes := by
  rw [outputTypes, outputs_asserted, List.filterMap_map, outputTypes]
  apply List.filterMap_congr
  intro r _
  exact r.asserted_returned?

theorem buffers_asserted : t.asserted.buffers = t.buffers := by
  rw [buffers, outputs_asserted, List.filterMap_map, buffers]
  apply List.filterMap_congr
  intro r _
  simp

theorem wrapperParams_asserted : t.asserted.wrapperParams = t.wrapperParams := by
  have hplain : t.asserted.plain = t.plain.map Row.asserted := by
    rw [plain, asserted, List.filter_map, plain]
    congr 1
    apply List.filter_congr
    intro r _
    rw [Bool.eq_iff_iff]
    simp
  rw [wrapperParams, hplain, List.filterMap_map, wrapperParams]
  apply List.filterMap_congr
  intro r _
  simp

theorem signature_asserted (f : ForeignFunction) (w : Wrapping) :
    t.asserted.signature f w.asserted = t.signature f w := by
  rw [signature, signature, outputTypes_asserted, wrapperParams_asserted]
  rfl

theorem declaration_asserted (stem : String) (f : ForeignFunction) :
    t.asserted.declaration stem f = t.declaration stem f := by
  rw [declaration, asserted, List.map_map]
  rfl

/-- The argument of the call for a row is the same but for its cast. -/
theorem callArgument_asserted (r : Row) : t.asserted.callArgument r.asserted =
    { t.callArgument r with cast := if r.isMapped then some r.binding else none } := by
  have hstorage : t.asserted.storage r.asserted = (t.storage r).asserted := by
    cases hrole : r.role with
    | plain => simp [storage, Row.asserted, hrole]
    | output => simp [storage, Row.asserted, hrole]
    | mapped source cast =>
      have hrole' : r.asserted.role = .mapped source true := by
        rw [Row.asserted, hrole]
      rw [storage, hrole', storage, hrole]
      exact List.getD_map ..
  simp only [callArgument, hstorage, Row.asserted_name, Row.asserted_binding,
    Row.asserted_role_output_iff]
  congr 1
  cases hrole : r.role <;> simp [Row.isMapped, Row.asserted, hrole]

/-- The body is the same but for the casts of its call. -/
theorem body_asserted (symbol : String) (returns : ReturnShape) : t.asserted.body symbol returns =
    (t.body symbol returns).map (Statement.withCasts (t.rows.map fun r => if r.isMapped then
        some r.binding else none)) := by
  have hnames : t.asserted.outputs.map (·.name) = t.outputs.map (·.name) := by
    rw [outputs_asserted, List.map_map]
    rfl
  have hcall : t.asserted.rows.map t.asserted.callArgument =
    List.zipWith (fun (a : CallArgument) cast => { a with cast := cast })
      (t.rows.map t.callArgument) (t.rows.map fun r => if r.isMapped then
          some r.binding else none) := by
    rw [List.zipWith_map, List.zipWith_self, asserted, List.map_map]
    exact List.map_congr_left fun r _ => t.callArgument_asserted r
  have hafter :=
    Statement.map_withCasts (t.rows.map fun r => if r.isMapped then some r.binding else none)
    fun s hs => (after_call returns (t.outputs.map (·.name)) s hs).1
  rw [body_eq, body_eq, buffers_asserted, hnames, hcall, List.map_append, List.map_cons, hafter,
    Statement.map_withCasts]
  · rfl
  · intro s hs
    obtain ⟨buffer, -, rfl⟩ := List.mem_map.mp hs
    rfl

end ArgumentTable

/-! ## Both rules -/

namespace TableFits

variable {f : ForeignFunction} {w : Wrapping} {t : ArgumentTable}

/-- The mapped rows are those of the mapped parameters. -/
theorem casts_eq (h : TableFits f w t) (stem : String) :
    ((t.declaration stem f).params.map fun p => if p.1 ∈ w.sources.keys then some p.2 else none) =
      t.rows.map fun r => if r.isMapped then some r.binding else none := by
  rw [ArgumentTable.declaration, List.map_map]
  apply List.map_congr_left
  intro r hr
  simp only [Function.comp_apply, h.isMapped_iff hr]

/-- Where pointees must agree, the declaration is the catalog's. -/
theorem declaration_of_identical (h : TableFits f w t) (hrule : w.pointees = .identical)
    (stem : String) :
    t.declaration stem f = ⟨stem ++ f.name, f.arguments.map fun a => (a.name, a.type),
        f.returns⟩ := by
  refine h.declaration_eq (fun a _ b _ hrecasts => ?_) stem
  have hasserted := hrecasts.asserted
  rw [hrule] at hasserted
  cases hasserted

/-- Where pointees must agree, nothing is cast. -/
theorem callArgument_cast_of_identical (h : TableFits f w t) (hrule : w.pointees = .identical)
    {r : Row} (hr : r ∈ t.rows) :
    (t.callArgument r).cast = none := by
  obtain ⟨i, a, -, hfits⟩ := h.rows.argument_of_mem hr
  cases hfits with
  | output _ _ => rfl
  | plain _ _ => rfl
  | mapped _ _ _ _ _ _ _ _ => simp [ArgumentTable.callArgument, hrule]

end TableFits

/-- **Asserting casts extends the rule that pointees must agree, and adds casts alone.** What can be
derived under this rule can be derived where casts are asserted, with the same declaration, which is
the catalog's, and the same signature.  The bodies are the same, too, but for the casts of the call:
under the first rule there are none, and under the second every mapped argument is cast to the type
that the declaration gives it. -/
theorem asserting_only_adds_casts {f : ForeignFunction} {w : Wrapping} {stem : String}
    {d : Declaration} {x : Wrapper}
    (hrule : w.pointees = .identical) (h : w.derive stem f = .ok (d, x)) :
    ∃ x', w.asserted.derive stem f = .ok (d, x') ∧ x'.signature = x.signature ∧
      d.params = f.arguments.map (fun a => (a.name, a.type)) ∧
      (∀ symbol arguments captured, .call symbol arguments captured ∈ x.body →
        arguments.length = d.params.length ∧ ∀ a ∈ arguments, a.cast = none) ∧
      x'.body = x.body.map (Statement.withCasts (d.params.map fun p => if p.1 ∈ w.sources.keys then
          some p.2 else none)) := by
  obtain ⟨t, s, htable, hsignature, rfl, rfl⟩ := Wrapping.derive_eq_ok_iff.mp h
  have hfits := table_fits htable
  refine ⟨⟨s, t.asserted.body (stem ++ f.name) s.returns⟩, ?_, rfl, ?_, ?_, ?_⟩
  · refine Wrapping.derive_eq_ok_iff.mpr ⟨t.asserted, s, Wrapping.table_asserted htable, ?_,
      t.declaration_asserted stem f, rfl⟩
    rw [t.signature_asserted]
    exact hsignature
  · rw [hfits.declaration_of_identical hrule]
  · intro symbol arguments captured hcall
    -- the one call of the body is that of the table
    obtain rfl := t.arguments_of_mem_body _ _ hcall
    refine ⟨by simp [ArgumentTable.declaration], fun a ha => ?_⟩
    obtain ⟨r, hr, rfl⟩ := List.mem_map.mp ha
    exact hfits.callArgument_cast_of_identical hrule hr
  · rw [hfits.casts_eq stem]
    exact t.body_asserted (stem ++ f.name) s.returns

/-- The sample is derived under either rule.  The second casts its third argument, which is mapped,
and changes nothing else. -/
theorem sample_asserting_adds_a_cast :
    sampleWrapping.pointees = .identical ∧
      ∃ d x x', sampleWrapping.derive "P_" sampleFunction = .ok (d, x) ∧
        sampleWrapping.asserted.derive "P_" sampleFunction = .ok (d, x') ∧
          x'.signature = x.signature ∧
        x'.body = x.body.map (Statement.withCasts [none, none, some (.pointer .shared "Buf"),
            none]) ∧ x'.body ≠ x.body := by
  have h : sampleWrapping.derive "P_" sampleFunction =
    .ok (sampleTable.declaration "P_" sampleFunction,
      ⟨sampleSignature, sampleTable.body "P_open" sampleSignature.returns⟩) := by decide +kernel
  obtain ⟨x', h', hsignature, -, -, hbody⟩ := asserting_only_adds_casts rfl h
  refine ⟨rfl, _, _, x', h, h', hsignature, hbody, ?_⟩
  rw [hbody]
  decide +kernel

end Bindery
