/-
# Bindery.Proofs.Wrapper.Storage -- where the arguments of a call live.

The storage of an argument is a parameter of the wrapper or a buffer that the wrapper allocates.
`ArgumentTable.buffers` lists the buffers with their types in the order in which they are returned,
and the other views of the outputs are projections of it. `Placement` says for each row where its
storage is and how the types on both sides go together; together with the names, which are distinct,
that is all that the proofs about calls and bodies need to know of a table.
-/
import Bindery.Wrapper.Body
import Bindery.Proofs.Keys
import Bindery.Proofs.Wrapper.Table

namespace Bindery

/-! ## Buffers -/

namespace ArgumentTable

/-- The outputs with the types of their buffers, in the order in which they are returned. -/
def buffers (t : ArgumentTable) : List (String × String) :=
  t.outputs.filterMap fun r => r.returned?.map fun type => (r.name, type)

theorem outputTypes_eq (t : ArgumentTable) : t.outputTypes = t.buffers.map (·.2) := by
  simp [outputTypes, buffers, List.map_filterMap, Function.comp_def]

theorem allocations_eq (t : ArgumentTable) :
    (t.outputs.filterMap fun r => r.returned?.map (Statement.allocate r.name)) =
      t.buffers.map fun b => .allocate b.1 b.2 := by
  simp [buffers, List.map_filterMap, Function.comp_def]

/-- The parameters of the wrapper are the plain rows. -/
theorem wrapperParams_eq (t : ArgumentTable) :
    t.wrapperParams = t.plain.map fun r => (r.name, r.declared.toParam) := by
  rw [wrapperParams, ← List.filterMap_eq_map]
  apply List.filterMap_congr
  intro r hr
  have hrole : r.role = .plain := eq_of_beq (List.mem_filter.mp hr).2
  rw [Row.param?, hrole]
  rfl

theorem wrapperParams_sublist (t : ArgumentTable) :
    List.Sublist (t.wrapperParams.map (·.1)) (t.rows.map (·.name)) := by
  rw [wrapperParams_eq, List.map_map]
  exact List.filter_sublist.map _

end ArgumentTable

namespace Scanned

variable {w : Wrapping} {args : List Argument} {rows : List Row}

theorem map_eq (h : Scanned w args rows) :
    rows.map (fun r => (r.name, r.declared)) = args.map fun a => (a.name, a.type) := by
  apply List.ext_getElem?
  intro i
  rw [List.getElem?_map, List.getElem?_map]
  cases ha : args[i]? with
  | none =>
    have hi : rows[i]? = none := by
      rw [List.getElem?_eq_none_iff] at ha ⊢
      rw [h.length]
      exact ha
    rw [hi]
    rfl
  | some a =>
    obtain ⟨r, hr, hfits⟩ := h.row ha
    rw [hr, Option.map_some, Option.map_some, hfits.name, hfits.declared]

theorem names (h : Scanned w args rows) : rows.map (·.name) = args.map (·.name) := by
  have hfst := congrArg (List.map Prod.fst) h.map_eq
  rw [List.map_map, List.map_map] at hfst
  exact hfst

end Scanned

/-! ## Placements -/

/-- Where the storage of a row is, and how the types of its two sides go together. -/
inductive Placement (t : ArgumentTable) (r : Row) : Prop
  /-- A parameter of the wrapper. -/
  | plain : r.role = .plain → r.binding = r.declared → Placement t r
  /-- A buffer of its own. -/
  | output {access : Access} {pointee : String} :
      r.role = .output → r.declared = .pointer access pointee →
        r.binding = r.declared → Placement t r
  /-- The parameter of another argument. -/
  | ofPlain {source : Row} {cast : Bool} {position : Nat} {access sourceAccess : Access}
      {pointee sourcePointee : String} :
      r.role = .mapped position cast → source ∈ t.rows → t.storage r = source →
        source.role = .plain →
      r.binding = .pointer access pointee → source.declared = .pointer sourceAccess sourcePointee →
      (access = .exclusive → sourceAccess = .exclusive) → (cast = false → pointee = sourcePointee) →
        Placement t r
  /-- The buffer of another argument. -/
  | ofOutput {source : Row} {cast : Bool} {position : Nat} {access sourceAccess : Access}
      {sourcePointee : String} :
      r.role = .mapped position cast → source ∈ t.rows → t.storage r = source →
        source.role = .output →
      r.binding = .pointer access sourcePointee → source.declared =
        .pointer sourceAccess sourcePointee → Placement t r

namespace TableFits

variable {f : ForeignFunction} {w : Wrapping} {t : ArgumentTable}

theorem nodup_rows (h : TableFits f w t) (hnodup : (f.arguments.map (·.name)).Nodup) :
    (t.rows.map (·.name)).Nodup := by
  rw [h.rows.names]
  exact hnodup

/-- Every row of a table has a place. -/
theorem placement (h : TableFits f w t) {r : Row} (hr : r ∈ t.rows) : Placement t r := by
  obtain ⟨i, a, -, hfits⟩ := h.rows.argument_of_mem hr
  cases hfits with
  | output _ htype => exact .output rfl htype rfl
  | plain _ _ => exact .plain rfl rfl
  | @mapped position source access sourceAccess pointee sourcePointee _ _ hsource hunmapped htype
      hdeclared hagree halias =>
    rw [List.getElem?_take] at hsource
    split at hsource
    · have hmem : source ∈ t.rows := List.mem_of_getElem? hsource
      have hstorage : ∀ q : Row, t.rows.getD position q = source := by
        intro q
        rw [List.getD_eq_getElem?_getD, hsource, Option.getD_some]
      -- a source is not mapped, so its storage is its own
      cases hrole : source.role with
      | plain =>
        refine .ofPlain rfl hmem (hstorage _) hrole (by simpa [hrole] using htype) hdeclared ?_ ?_
        · rintro rfl
          cases sourceAccess with
          | exclusive => rfl
          | shared => exact absurd ⟨rfl, rfl, hrole⟩ halias
        · intro hcast
          apply hagree
          cases hrule : w.pointees with
          | identical => rfl
          | asserted => rw [hrule] at hcast; cases hcast
      | output =>
        have hbinding :
          (if Role.output = .output then ForeignType.pointer access sourcePointee else a.type) =
            .pointer access sourcePointee := if_pos rfl
        exact .ofOutput rfl hmem (hstorage _) hrole hbinding hdeclared
      | mapped position cast =>
        rw [Row.isMapped, hrole] at hunmapped
        cases hunmapped
    · cases hsource

/-- A listed name has a row with a buffer. -/
theorem row_of_output (h : TableFits f w t) (hnodup : (f.arguments.map (·.name)).Nodup)
    {name : String}
    (hname : name ∈ w.outputs) :
    ∃ r type, t.row? name = some r ∧ r ∈ t.rows ∧ r.name = name ∧ r.role = .output ∧
        r.returned? = some type := by
  obtain ⟨a, ha, rfl⟩ := ForeignFunction.declares_iff.mp (h.names.outputs_declared name hname)
  obtain ⟨i, r, hr, hfits⟩ := h.rows.row_of_mem ha
  have hmem : r ∈ t.rows := List.mem_of_getElem? hr
  have hfind := find?_key_eq_some (h.nodup_rows hnodup) hmem
  have hrole := hfits.output_iff.mpr hname
  rw [hfits.name] at hfind
  cases hfits with
  | @output access pointee _ htype =>
    refine ⟨_, pointee, hfind, hmem, rfl, rfl, ?_⟩
    show a.type.pointee? = some pointee
    rw [htype]
    rfl
  | plain _ _ => cases hrole
  | mapped _ _ _ _ _ _ _ _ => cases hrole

/-- The rows of the outputs stand in the order of the list. -/
theorem outputs_names (h : TableFits f w t) (hnodup : (f.arguments.map (·.name)).Nodup) :
    t.outputs.map (·.name) = w.outputs := by
  rw [ArgumentTable.outputs, h.returned]
  apply map_filterMap_eq_self
  intro name hname
  obtain ⟨r, _, hrow, -, hkey, -⟩ := h.row_of_output hnodup hname
  exact ⟨r, hrow, hkey⟩

/-- Every listed output has one buffer, in the order of the list. -/
theorem buffers_names (h : TableFits f w t) (hnodup : (f.arguments.map (·.name)).Nodup) :
    t.buffers.map (·.1) = w.outputs := by
  rw [ArgumentTable.buffers, ArgumentTable.outputs, h.returned, List.filterMap_filterMap]
  apply map_filterMap_eq_self
  intro name hname
  obtain ⟨r, type, hrow, -, hkey, -, htype⟩ := h.row_of_output hnodup hname
  refine ⟨(r.name, type), ?_, hkey⟩
  rw [hrow, Option.bind_some, htype]
  rfl

theorem nodup_buffers (h : TableFits f w t) (hnodup : (f.arguments.map (·.name)).Nodup) :
    (t.buffers.map (·.1)).Nodup := by
  rw [h.buffers_names hnodup]
  exact h.names.outputs_nodup

/-- An output's buffer has the type that the output points to. -/
theorem lookup_buffer (h : TableFits f w t) (hnodup : (f.arguments.map (·.name)).Nodup) {r : Row}
    (hr : r ∈ t.rows)
    (hrole : r.role = .output) {access : Access} {pointee : String}
    (htype : r.declared = .pointer access pointee) :
    t.buffers.lookup r.name = some pointee := by
  apply lookup_eq_some_of_nodup (h.nodup_buffers hnodup)
  obtain ⟨i, a, -, hfits⟩ := h.rows.argument_of_mem hr
  have hlisted : r.name ∈ w.outputs := by
    rw [hfits.name]
    exact hfits.output_iff.mp hrole
  have hreturned : r.returned? = some pointee := by
    rw [Row.returned?, hrole, htype]
    rfl
  refine List.mem_filterMap.mpr ⟨r, ?_, by rw [hreturned]; rfl⟩
  rw [ArgumentTable.outputs, h.returned]
  exact List.mem_filterMap.mpr ⟨r.name, hlisted, find?_key_eq_some (h.nodup_rows hnodup) hr⟩

/-- A plain argument is a parameter of its own type. -/
theorem lookup_param (h : TableFits f w t) (hnodup : (f.arguments.map (·.name)).Nodup) {r : Row}
    (hr : r ∈ t.rows)
    (hrole : r.role = .plain) : t.wrapperParams.lookup r.name = some r.declared.toParam := by
  apply lookup_eq_some_of_nodup
  · exact (t.wrapperParams_sublist).nodup (h.nodup_rows hnodup)
  · rw [t.wrapperParams_eq]
    exact List.mem_map.mpr ⟨r, List.mem_filter.mpr ⟨hr, by rw [hrole]; rfl⟩, rfl⟩

/-- A name that is a parameter is not an output. -/
theorem lookup_param_of_output (h : TableFits f w t) (hnodup : (f.arguments.map (·.name)).Nodup)
    {name : String}
    (hname : name ∈ w.outputs) : t.wrapperParams.lookup name = none := by
  rw [List.lookup_eq_none_iff]
  intro param hparam
  rw [t.wrapperParams_eq] at hparam
  obtain ⟨q, hq, rfl⟩ := List.mem_map.mp hparam
  obtain ⟨hq, hplain⟩ := List.mem_filter.mp hq
  obtain ⟨r, _, -, hr, rfl, hrole, -⟩ := h.row_of_output hnodup hname
  rw [bne_iff_ne]
  intro hsame
  obtain rfl := List.inj_on_of_nodup_map (h.nodup_rows hnodup) hr hq hsame
  rw [hrole] at hplain
  cases hplain

end TableFits

end Bindery
