/-
# Bindery.Proofs.Wrapper.CallTyping -- the arguments of a call fit the declared types.

A call hands over the storage of its arguments, which a wrapper knows as parameters and buffers.
`CallArgument.WellTyped` is the rule for one argument against the type that the raw declaration
binds it by: one case for each way to hand storage over.  Every row of a table obeys it, because
`Placement` says where the storage of the row is; so the whole call of a body is well typed against
the declaration that is made of the same table.
-/
import Bindery.Unit.Assembly
import Bindery.Proofs.Wrapper.Storage

namespace Bindery

/-! ## The rule -/

/-- Whether a statement calls the foreign function. -/
def Statement.isCall : Statement → Bool
  | .call _ _ _ => true
  | _ => false

/-- The name and the type of the buffer that a statement declares. -/
def Statement.buffer? : Statement → Option (String × String)
  | .allocate name type => some (name, type)
  | _ => none

/-- The storage that an argument hands over is there and fits the declared type. -/
def CallArgument.StorageFits (params : List (String × ParamType)) (buffers : List (String × String))
    (a : CallArgument)
    (declared : ForeignType) : Prop :=
  match a.passing with
  | .value => ∃ text, declared = .value text ∧ params.lookup a.storage = some (.value text)
  | .borrow access =>
    ∃ pointee ownAccess ownPointee, declared = .pointer access pointee ∧
      params.lookup a.storage = some (.reference ownAccess ownPointee) ∧
      (access = .exclusive → ownAccess = .exclusive) ∧ (a.cast = none → ownPointee = pointee)
  | .uninit =>
    ∃ access pointee, declared = .pointer access pointee ∧ buffers.lookup a.storage = some pointee ∧
      params.lookup a.storage = none

/-- **`a.WellTyped params buffers declared`** -- a wrapper with these parameters and buffers may
hand `a` over where the foreign function declares `declared`. -/
structure CallArgument.WellTyped (params : List (String × ParamType))
    (buffers : List (String × String)) (a : CallArgument)
    (declared : ForeignType) : Prop where
  storage : a.StorageFits params buffers declared
  cast : ∀ type, a.cast = some type → type = declared

/-! ## Rows -/

namespace ArgumentTable

variable {t : ArgumentTable} {r : Row}

/-- An argument that is not mapped uses its own storage. -/
theorem storage_of_unmapped (h : r.isMapped = false) : t.storage r = r := by
  unfold storage
  cases hrole : r.role with
  | plain => rfl
  | output => rfl
  | mapped position cast =>
    rw [Row.isMapped, hrole] at h
    cases h

/-- A cast is to the bound type. -/
theorem callArgument_cast {type : ForeignType} (h : (t.callArgument r).cast = some type) :
    type = r.binding := by
  rw [callArgument] at h
  dsimp only at h
  split at h
  · exact (Option.some.inj h).symm
  · cases h

/-- A mapped argument that is not cast is one for which no cast is asserted. -/
theorem not_cast_of_callArgument {position : Nat} {cast : Bool}
    (hrole : r.role = .mapped position cast)
    (h : (t.callArgument r).cast = none) : cast = false := by
  cases cast with
  | false => rfl
  | true =>
    rw [callArgument, hrole] at h
    cases h

end ArgumentTable

namespace TableFits

variable {f : ForeignFunction} {w : Wrapping} {t : ArgumentTable} {r : Row}

/-- An argument whose storage is a parameter is passed as its bound type asks for. -/
theorem passing_of_plain {source : Row} (hstorage : t.storage r = source)
    (hrole : source.role = .plain) :
    (t.callArgument r).storage = source.name ∧ (t.callArgument r).passing = r.binding.passing := by
  rw [ArgumentTable.callArgument, hstorage, hrole]
  exact ⟨rfl, rfl⟩

/-- An argument whose storage is a buffer is passed as a pointer into it. -/
theorem passing_of_output {source : Row} (hstorage : t.storage r = source)
    (hrole : source.role = .output) :
    (t.callArgument r).storage = source.name ∧ (t.callArgument r).passing = .uninit := by
  rw [ArgumentTable.callArgument, hstorage, hrole]
  exact ⟨rfl, rfl⟩

/-- A buffer fits every pointer to the type that its output points to. -/
theorem storageFits_of_output (h : TableFits f w t) (hnodup : (f.arguments.map (·.name)).Nodup)
    {source : Row}
    {access sourceAccess : Access} {pointee : String} (hstorage : t.storage r = source)
    (hmem : source ∈ t.rows)
    (hrole : source.role = .output) (hbinding : r.binding = .pointer access pointee)
    (hdeclared : source.declared = .pointer sourceAccess pointee) :
    (t.callArgument r).StorageFits t.wrapperParams t.buffers r.binding := by
  obtain ⟨hname, hpassing⟩ := passing_of_output hstorage hrole
  have hlookup := h.lookup_buffer hnodup hmem hrole hdeclared
  rw [CallArgument.StorageFits, hpassing, hname]
  refine ⟨access, pointee, hbinding, hlookup, ?_⟩
  apply h.lookup_param_of_output hnodup
  rw [← h.buffers_names hnodup]
  exact List.mem_map_of_mem (mem_of_lookup_eq_some hlookup)

/-- The storage of every row fits its bound type. -/
theorem storageFits (h : TableFits f w t) (hnodup : (f.arguments.map (·.name)).Nodup)
    (hr : r ∈ t.rows) :
    (t.callArgument r).StorageFits t.wrapperParams t.buffers r.binding := by
  cases h.placement hr with
  | plain hrole hbinding =>
    have hstorage : t.storage r = r :=
      ArgumentTable.storage_of_unmapped (by rw [Row.isMapped, hrole])
    have hparam := h.lookup_param hnodup hr hrole
    obtain ⟨hname, hpassing⟩ := passing_of_plain hstorage hrole
    rw [CallArgument.StorageFits, hpassing, hname, hbinding, hparam]
    cases r.declared with
    | value text => exact ⟨text, rfl, rfl⟩
    | pointer access pointee =>
      exact ⟨pointee, access, pointee, rfl, rfl, fun hexclusive => hexclusive, fun _ => rfl⟩
  | @output access pointee hrole hdeclared hbinding =>
    have hstorage : t.storage r = r :=
      ArgumentTable.storage_of_unmapped (by rw [Row.isMapped, hrole])
    rw [hdeclared] at hbinding
    exact h.storageFits_of_output hnodup hstorage hr hrole hbinding hdeclared
  | @ofPlain source cast position access sourceAccess pointee sourcePointee hmapped hmem hstorage
      hrole hbinding hdeclared
      hexclusive hpointees =>
    have hparam := h.lookup_param hnodup hmem hrole
    obtain ⟨hname, hpassing⟩ := passing_of_plain hstorage hrole
    rw [hdeclared] at hparam
    rw [CallArgument.StorageFits, hpassing, hname, hbinding]
    refine ⟨pointee, sourceAccess, sourcePointee, rfl, hparam, hexclusive, ?_⟩
    intro hcast
    exact (hpointees (ArgumentTable.not_cast_of_callArgument hmapped hcast)).symm
  | ofOutput _ hmem hstorage hrole hbinding hdeclared =>
    exact h.storageFits_of_output hnodup hstorage hmem hrole hbinding hdeclared

/-- Every row is handed over as a value of its bound type. -/
theorem callArgument_wellTyped (h : TableFits f w t) (hnodup : (f.arguments.map (·.name)).Nodup)
    (hr : r ∈ t.rows) :
    (t.callArgument r).WellTyped t.wrapperParams t.buffers r.binding :=
  ⟨h.storageFits hnodup hr, fun _ hcast => ArgumentTable.callArgument_cast hcast⟩

/-- The arguments of the call fit the parameters of the declaration, position by position. -/
theorem call_wellTyped (h : TableFits f w t) (hnodup : (f.arguments.map (·.name)).Nodup)
    (stem : String) :
    List.Forall₂ (CallArgument.WellTyped t.wrapperParams t.buffers) (t.rows.map t.callArgument)
      ((t.declaration stem f).params.map (·.2)) := by
  rw [ArgumentTable.declaration, List.map_map, List.forall₂_map_left_iff,
    List.forall₂_map_right_iff, List.forall₂_same]
  intro r hr
  exact h.callArgument_wellTyped hnodup hr

end TableFits

/-! ## Bodies -/

namespace ArgumentTable

variable (t : ArgumentTable) (symbol : String) (returns : ReturnShape)

/-- A body declares its buffers, calls once, and deals with the outcome. -/
theorem body_eq : t.body symbol returns =
    (t.buffers.map fun b => .allocate b.1 b.2) ++ .call symbol (t.rows.map t.callArgument)
    (captures returns) ::
      (checks returns ++ (t.outputs.map (·.name)).map .assumeInit ++
          endings (t.outputs.map (·.name)) returns) := by
  rw [body, allocations_eq]
  simp only [List.append_assoc, List.cons_append, List.nil_append]

/-- What follows a call neither calls nor declares a buffer. -/
theorem after_call (names : List String) :
    ∀ s ∈ checks returns ++ names.map .assumeInit ++ endings names returns,
      Statement.isCall s = false ∧ Statement.buffer? s = none := by
  intro s hs
  rw [List.append_assoc, List.mem_append, List.mem_append] at hs
  rcases hs with hs | hs | hs
  · cases returns with
    | result types convention =>
      cases convention
      obtain rfl := List.mem_singleton.mp hs
      exact ⟨rfl, rfl⟩
    | unit => cases hs
    | raw type => cases hs
    | outputs types => cases hs
  · obtain ⟨name, -, rfl⟩ := List.mem_map.mp hs
    exact ⟨rfl, rfl⟩
  · cases returns with
    | unit => cases hs
    | raw type =>
      obtain rfl := List.mem_singleton.mp hs
      exact ⟨rfl, rfl⟩
    | outputs types =>
      obtain rfl := List.mem_singleton.mp hs
      exact ⟨rfl, rfl⟩
    | result types convention =>
      obtain rfl := List.mem_singleton.mp hs
      exact ⟨rfl, rfl⟩

/-- A body calls exactly once. -/
theorem body_calls : (t.body symbol returns).filter Statement.isCall =
    [.call symbol (t.rows.map t.callArgument) (captures returns)] := by
  have hafter := List.filter_eq_nil_iff.mpr fun s hs =>
    Bool.eq_false_iff.mp (after_call returns (t.outputs.map Row.name) s hs).1
  rw [body_eq, List.filter_append, List.filter_cons_of_pos rfl, hafter]
  simp [Statement.isCall, List.filter_map, Function.comp_def]

/-- The one call of a body hands over an argument for every row. -/
theorem arguments_of_mem_body {callee : String} {arguments : List CallArgument} {captured : Bool}
    (h : .call callee arguments captured ∈ t.body symbol returns) :
    arguments = t.rows.map t.callArgument := by
  have hmem :=
    List.mem_filter.mpr ⟨h, (rfl : Statement.isCall (.call callee arguments captured) = true)⟩
  rw [body_calls, List.mem_singleton] at hmem
  exact (Statement.call.inj hmem).2.1

/-- A body declares the buffers of its table. -/
theorem body_buffers : (t.body symbol returns).filterMap Statement.buffer? = t.buffers := by
  have hafter :=
    List.filterMap_eq_nil_iff.mpr fun s hs => (after_call returns (t.outputs.map Row.name) s hs).2
  rw [body_eq, List.filterMap_append, List.filterMap_cons_none rfl, hafter, List.append_nil,
    List.filterMap_map]
  exact List.filterMap_some

end ArgumentTable

end Bindery
