/-
# Bindery.Proofs.Wrapper.Signature -- when a wrapper has a signature, and what it shows.

A signature is read off a table.  The one thing that can go wrong is a raw value that nobody looks
at while there are outputs, which must not be read before; `exists_signature_iff` says so in terms
of the function and the wrapping.
-/
import Bindery.Wrapper.Signature
import Bindery.Proofs.Wrapper.Storage

namespace Bindery

/-! ## Return shapes -/

/-- The types of the outputs that are returned. -/
def ReturnShape.types : ReturnShape → List String
  | .unit => []
  | .raw _ => []
  | .outputs types => types
  | .result types _ => types

namespace ArgumentTable

/-- A return shape shows the types of all outputs. -/
theorem returnShape_types {wrapper : String} {outputs : List String}
    {convention : Option ResultConvention}
    {type : Option ForeignType} {returns : ReturnShape}
    (h : returnShape wrapper outputs convention type = .ok returns) :
    returns.types = outputs := by
  unfold returnShape at h
  split at h
  · cases h
    rfl
  · cases h
  · split at h
    · rename_i hempty
      cases h
      exact (List.isEmpty_iff.mp hempty).symm
    · cases h
  · split at h
    · rename_i hempty
      cases h
      exact (List.isEmpty_iff.mp hempty).symm
    · cases h
      rfl

/-- There is a return shape unless a raw value is left over, or a convention has none to look at. -/
theorem exists_returnShape_iff {wrapper : String} {outputs : List String}
    {convention : Option ResultConvention}
    {type : Option ForeignType} (hconvention : convention.isSome → type.isSome) :
    (∃ returns, returnShape wrapper outputs convention type = .ok returns) ↔
      ¬ (type.isSome ∧ outputs ≠ [] ∧ convention = none) := by
  cases convention with
  | some convention =>
    cases type with
    | some type => simp [returnShape]
    | none => cases hconvention rfl
  | none =>
    by_cases hempty : outputs = []
    · cases type <;> simp [returnShape, hempty]
    · cases type <;> simp [returnShape, hempty]

/-- What a signature shows. -/
theorem signature_eq_ok {t : ArgumentTable} {f : ForeignFunction} {w : Wrapping} {s : Signature}
    (h : t.signature f w = .ok s) :
    s.name = f.wrapperName w ∧ s.params = t.wrapperParams ∧ s.returns.types = t.outputTypes := by
  simp only [signature, bind_eq_ok_iff, pure_eq_ok_iff] at h
  obtain ⟨returns, hreturns, rfl⟩ := h
  exact ⟨rfl, rfl, returnShape_types hreturns⟩

end ArgumentTable

/-! ## Existence -/

variable {f : ForeignFunction} {w : Wrapping} {t : ArgumentTable}

/-- The outputs have types exactly when there are outputs. -/
theorem TableFits.outputTypes_ne_nil_iff (h : TableFits f w t)
    (hnodup : (f.arguments.map (·.name)).Nodup) :
    t.outputTypes ≠ [] ↔ w.outputs ≠ [] := by
  rw [ArgumentTable.outputTypes_eq, ← h.buffers_names hnodup, ne_eq, ne_eq, List.map_eq_nil_iff,
    List.map_eq_nil_iff]

/-- A table gives a signature unless the function returns a value, the wrapping has outputs, and no
convention tells whether they may be read. -/
theorem TableFits.exists_signature_iff (h : TableFits f w t)
    (hnodup : (f.arguments.map (·.name)).Nodup) :
    (∃ s, t.signature f w = .ok s) ↔
        ¬ (f.returns.isSome ∧ w.outputs ≠ [] ∧ w.convention = none) := by
  rw [← h.outputTypes_ne_nil_iff hnodup, ← ArgumentTable.exists_returnShape_iff h.names.convention]
  simp only [ArgumentTable.signature, bind_eq_ok_iff, pure_eq_ok_iff]
  constructor
  · rintro ⟨_, returns, hreturns, -⟩
    exact ⟨returns, hreturns⟩
  · rintro ⟨returns, hreturns⟩
    exact ⟨_, returns, hreturns, rfl⟩

end Bindery
