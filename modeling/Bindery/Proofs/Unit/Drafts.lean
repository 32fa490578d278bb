/-
# Bindery.Proofs.Unit.Drafts -- what a draft holds.

A draft takes up one pair of a function and a wrapping after another.  `Draft.Taken` is its
invariant: there is one wrapper for every pair, each with a declaration of the draft beside it;
every declaration stems from a pair; and neither symbols nor names of wrappers are shared.  One pair
more keeps the invariant, so it holds of every draft that a run of pairs leaves, and of the draft at
which a run stops.
-/
import Bindery.Unit.Assembly
import Bindery.Proofs.Catalog.Accepted
import Bindery.Proofs.Checks
import Bindery.Proofs.Keys

namespace Bindery

/-! ## Pairs -/

section Pairs

variable {f : ForeignFunction} {w : Wrapping} {stem : String} {d : Declaration} {wrapper : Wrapper}

theorem mem_wrappingPairs_iff {functions : List ForeignFunction} :
    (f, w) ∈ wrappingPairs functions ↔ f ∈ functions ∧ w ∈ f.wrappings := by
  simp [wrappingPairs]

theorem FunctionCatalog.mem_of_mem_forBackend {c : FunctionCatalog} {backend : Backend}
    (h : f ∈ c.forBackend backend) :
    f ∈ c.functions :=
  (List.mem_filter.mp h).1

/-- A pair can be derived: it has a table and, from that, a signature. -/
def Wrapping.Derivable (f : ForeignFunction) (w : Wrapping) : Prop :=
  ∃ t s, w.table f = .ok t ∧ t.signature f w = .ok s

/-- What a pair gives on its own. -/
theorem Wrapping.derive_eq_ok_iff : w.derive stem f = .ok (d, wrapper) ↔
    ∃ t s, w.table f = .ok t ∧ t.signature f w = .ok s ∧ t.declaration stem f = d ∧
      ⟨s, t.body (stem ++ f.name) s.returns⟩ = wrapper := by
  simp only [derive, bind_eq_ok_iff, pure_eq_ok_iff, Prod.mk.injEq, ArgumentTable.declaration]
  constructor
  · rintro ⟨t, ht, s, hs, hd, hw⟩
    exact ⟨t, s, ht, hs, hd, hw⟩
  · rintro ⟨t, s, ht, hs, hd, hw⟩
    exact ⟨t, ht, s, hs, hd, hw⟩

/-- Whether a pair can be derived does not depend on what symbols start with. -/
theorem Wrapping.exists_derive_iff : (∃ pair, w.derive stem f = .ok pair) ↔ w.Derivable f := by
  constructor
  · rintro ⟨⟨d, wrapper⟩, h⟩
    obtain ⟨t, s, ht, hs, -, -⟩ := derive_eq_ok_iff.mp h
    exact ⟨t, s, ht, hs⟩
  · rintro ⟨t, s, ht, hs⟩
    exact ⟨_, derive_eq_ok_iff.mpr ⟨t, s, ht, hs, rfl, rfl⟩⟩

/-- The names that a pair gives out. -/
theorem Wrapping.derive_names (h : w.derive stem f = .ok (d, wrapper)) :
    d.symbol = stem ++ f.name ∧ wrapper.signature.name = f.wrapperName w := by
  obtain ⟨t, s, -, hs, rfl, rfl⟩ := derive_eq_ok_iff.mp h
  simp only [ArgumentTable.signature, bind_eq_ok_iff, pure_eq_ok_iff] at hs
  obtain ⟨returns, -, rfl⟩ := hs
  exact ⟨rfl, rfl⟩

/-- **`d.Declares stem f`** -- every wrapping of the function gives this declaration. -/
def Declaration.Declares (d : Declaration) (stem : String) (f : ForeignFunction) : Prop :=
  ∀ w ∈ f.wrappings, ∃ t, w.table f = .ok t ∧ t.declaration stem f = d

/-- The declaration of a function has its symbol and its return type. -/
theorem Declaration.Declares.fields (h : d.Declares stem f) (hne : f.wrappings ≠ []) :
    d.symbol = stem ++ f.name ∧ d.returns = f.returns := by
  obtain ⟨w, hw⟩ := List.exists_mem_of_ne_nil _ hne
  obtain ⟨t, -, rfl⟩ := h w hw
  exact ⟨rfl, rfl⟩

/-- A function has one declaration. -/
theorem Declaration.Declares.unique {other : Declaration} (h : d.Declares stem f)
    (hother : other.Declares stem f)
    (hne : f.wrappings ≠ []) : d = other := by
  obtain ⟨w, hw⟩ := List.exists_mem_of_ne_nil _ hne
  obtain ⟨t, htable, rfl⟩ := h w hw
  obtain ⟨t', htable', rfl⟩ := hother w hw
  rw [Except.ok.inj (htable.symm.trans htable')]

end Pairs

namespace Draft

variable {v : Variant} {draft next : Draft} {f : ForeignFunction} {w : Wrapping} {d : Declaration}

/-! ## One pair -/

/-- A declaration is taken up beside those that are there, unless it is there already. -/
theorem declare_eq_some {declarations : List Declaration} (h : draft.declare d = some declarations)
    (hnodup : (draft.declarations.map (·.symbol)).Nodup) :
    d ∈ declarations ∧ (declarations.map (·.symbol)).Nodup ∧
      (∀ other ∈ draft.declarations, other ∈ declarations) ∧
      ∀ other ∈ declarations, other ∈ draft.declarations ∨ other = d := by
  unfold declare at h
  split at h
  · rename_i first hfirst
    split at h
    · rename_i hsame
      cases h
      rw [← hsame]
      exact ⟨List.mem_of_find?_eq_some hfirst, hnodup, fun other hother => hother,
        fun other hother => Or.inl hother⟩
    · cases h
  · rename_i hnone
    cases h
    refine ⟨by simp, ?_, fun other hother => List.mem_append_left _ hother,
      fun other hother => by simpa using hother⟩
    rw [List.map_append, List.nodup_append]
    refine ⟨hnodup, by simp, ?_⟩
    intro symbol hsymbol symbol' hsymbol' hsame
    obtain ⟨other, hother, rfl⟩ := List.mem_map.mp hsymbol
    rw [List.map_singleton, List.mem_singleton] at hsymbol'
    exact List.find?_eq_none.mp hnone other hother (beq_iff_eq.mpr (hsame.trans hsymbol'))

/-- A declaration is refused because another one has its symbol. -/
theorem declare_eq_none (h : draft.declare d = none) :
    ∃ first ∈ draft.declarations, first.symbol = d.symbol ∧ first ≠ d := by
  unfold declare at h
  split at h
  · rename_i first hfirst
    split at h
    · cases h
    · rename_i hdiffer
      obtain ⟨hmem, hsymbol⟩ := mem_of_find?_key_eq_some hfirst
      exact ⟨first, hmem, hsymbol, hdiffer⟩
  · cases h

/-- Taking up a pair as a chain of checks. -/
theorem add_eq (v : Variant) (draft : Draft) (f : ForeignFunction) (w : Wrapping) :
    draft.add v (f, w) = (do
    let pair ← (w.derive v.symbolStem f).mapError (.inFunction f.name)
    let declarations ← need (draft.declare pair.1)
      (.inFunction f.name (.declarationConflict pair.2.signature.name))
    reject ((draft.wrappers.any fun other => other.signature.name == pair.2.signature.name) = true)
      (.duplicateWrapper v.label pair.2.signature.name)
    return ⟨declarations, draft.wrappers ++ [pair.2]⟩) := by
  unfold add need reject
  dsimp only
  cases w.derive v.symbolStem f with
  | error fault => rfl
  | ok pair =>
    simp only [Except.mapError, bind, Except.bind]
    cases draft.declare pair.1 with
    | none => rfl
    | some declarations =>
      simp only
      split <;> rfl

/-- A pair is taken up when it can be derived, its declaration agrees with what is there, and its
name is new. -/
theorem add_eq_ok (h : draft.add v (f, w) = .ok next) :
    ∃ d wrapper, w.derive v.symbolStem f = .ok (d, wrapper) ∧ draft.declare d =
      some next.declarations ∧
      next.wrappers = draft.wrappers ++ [wrapper] ∧
      ∀ other ∈ draft.wrappers, other.signature.name ≠ wrapper.signature.name := by
  rw [add_eq] at h
  simp only [bind_eq_ok_iff, mapError_eq_ok_iff, need_eq_ok_iff, reject_eq_ok_iff,
    pure_eq_ok_iff] at h
  obtain ⟨⟨d, wrapper⟩, hderive, declarations, hdeclare, _, hnew, rfl⟩ := h
  exact ⟨d, wrapper, hderive, hdeclare, rfl, by simpa using hnew⟩

/-- A pair is refused because it cannot be derived, because of its declaration, or because of its
name. -/
theorem add_eq_error {e : GenerationError} (h : draft.add v (f, w) = .error e) :
    (∃ fault, w.derive v.symbolStem f = .error fault ∧ e = .inFunction f.name fault) ∨
      ∃ d wrapper, w.derive v.symbolStem f = .ok (d, wrapper) ∧
        (draft.declare d = none ∧
          e = .inFunction f.name (.declarationConflict wrapper.signature.name) ∨
          (∃ other ∈ draft.wrappers, other.signature.name = wrapper.signature.name) ∧
            e = .duplicateWrapper v.label wrapper.signature.name) := by
  rw [add_eq] at h
  simp only [bind_eq_error_iff, mapError_eq_error_iff, mapError_eq_ok_iff, need_eq_error_iff,
    need_eq_ok_iff, reject_eq_error_iff, pure_ne_error, exists_false, and_false, or_false] at h
  rcases h with ⟨fault, hfault, rfl⟩ | ⟨⟨d, wrapper⟩, hderive,
    ⟨hnone, rfl⟩ | ⟨declarations, -, hname, rfl⟩⟩
  · exact Or.inl ⟨fault, hfault, rfl⟩
  · exact Or.inr ⟨d, wrapper, hderive, Or.inl ⟨hnone, rfl⟩⟩
  · exact Or.inr ⟨d, wrapper, hderive, Or.inr ⟨by simpa using hname, rfl⟩⟩

/-! ## The invariant -/

/-- **`draft.Taken v pairs`** -- the draft holds what the pairs give, and nothing else. -/
structure Taken (v : Variant) (pairs : List (ForeignFunction × Wrapping)) (draft : Draft) :
    Prop where
  /-- Every pair has its wrapper, at its position, and its declaration. -/
  wrappers : List.Forall₂
    (fun pair wrapper => ∃ d ∈ draft.declarations, pair.2.derive v.symbolStem pair.1 =
    .ok (d, wrapper)) pairs draft.wrappers
  /-- Every declaration is that of some pair. -/
  declarations : ∀ d ∈ draft.declarations, ∃ pair ∈ pairs, ∃ wrapper,
    pair.2.derive v.symbolStem pair.1 = .ok (d, wrapper)
  symbols : (draft.declarations.map (·.symbol)).Nodup
  names : (draft.wrappers.map (·.signature.name)).Nodup

namespace Taken

variable {pairs : List (ForeignFunction × Wrapping)}

theorem empty : Draft.empty.Taken v [] :=
  ⟨.nil, nofun, List.nodup_nil, List.nodup_nil⟩

/-- One pair more. -/
theorem step (h : draft.Taken v pairs) (hadd : draft.add v (f, w) = .ok next) :
    next.Taken v (pairs ++ [(f, w)]) := by
  obtain ⟨d, wrapper, hderive, hdeclare, hwrappers, hnew⟩ := add_eq_ok hadd
  obtain ⟨hmem, hsymbols, hkept, honly⟩ := declare_eq_some hdeclare h.symbols
  refine ⟨?_, ?_, hsymbols, ?_⟩
  -- declarations are only added, so the wrappers that are there keep theirs
  · rw [hwrappers]
    apply List.rel_append
    · refine h.wrappers.imp ?_
      rintro pair other ⟨d', hd', hother⟩
      exact ⟨d', hkept d' hd', hother⟩
    · exact .cons ⟨d, hmem, hderive⟩ .nil
  · intro d' hd'
    rcases honly d' hd' with hd' | rfl
    · obtain ⟨pair, hpair, other, hother⟩ := h.declarations d' hd'
      exact ⟨pair, List.mem_append_left _ hpair, other, hother⟩
    · exact ⟨(f, w), by simp, wrapper, hderive⟩
  · rw [hwrappers, List.map_append, List.nodup_append]
    refine ⟨h.names, by simp, ?_⟩
    intro name hname name' hname' hsame
    obtain ⟨other, hother, rfl⟩ := List.mem_map.mp hname
    rw [List.map_singleton, List.mem_singleton] at hname'
    exact hnew other hother (hsame.trans hname')

/-- The names of the wrappers are those that the pairs give. -/
theorem map_names (h : draft.Taken v pairs) :
    draft.wrappers.map (·.signature.name) = pairs.map fun pair => pair.1.wrapperName pair.2 := by
  refine (map_eq_map_of_forall₂ h.wrappers ?_).symm
  rintro pair wrapper ⟨d, -, hderive⟩
  exact (Wrapping.derive_names hderive).2.symm

/-- Every pair is derived, with its declaration in the draft. -/
theorem declaration_of_mem (h : draft.Taken v pairs) (hmem : (f, w) ∈ pairs) :
    ∃ d ∈ draft.declarations, ∃ wrapper, w.derive v.symbolStem f = .ok (d, wrapper) := by
  obtain ⟨wrapper, -, d, hd, hderive⟩ := exists_right_of_forall₂ h.wrappers hmem
  exact ⟨d, hd, wrapper, hderive⟩

/-- A function all of whose wrappings are taken up has a declaration that all of them give. -/
theorem exists_declares (h : draft.Taken v pairs) (hpairs : ∀ w ∈ f.wrappings, (f, w) ∈ pairs)
    (hne : f.wrappings ≠ []) :
    ∃ d ∈ draft.declarations, d.Declares v.symbolStem f := by
  obtain ⟨w, hw⟩ := List.exists_mem_of_ne_nil _ hne
  obtain ⟨d, hd, wrapper, hderive⟩ := h.declaration_of_mem (hpairs w hw)
  refine ⟨d, hd, fun w' hw' => ?_⟩
  obtain ⟨d', hd', wrapper', hderive'⟩ := h.declaration_of_mem (hpairs w' hw')
  have hsymbol : d'.symbol = d.symbol := by
    rw [(Wrapping.derive_names hderive').1, (Wrapping.derive_names hderive).1]
  -- one symbol is declared once, so the other wrapping has given the same declaration
  obtain rfl := List.inj_on_of_nodup_map h.symbols hd' hd hsymbol
  obtain ⟨t, -, htable, -, hdeclaration, -⟩ := Wrapping.derive_eq_ok_iff.mp hderive'
  exact ⟨t, htable, hdeclaration⟩

/-- Every wrapper comes from a pair. -/
theorem pair_of_wrapper (h : draft.Taken v pairs) {wrapper : Wrapper}
    (hmem : wrapper ∈ draft.wrappers) :
    ∃ pair ∈ pairs, ∃ d ∈ draft.declarations, pair.2.derive v.symbolStem pair.1 =
        .ok (d, wrapper) := by
  obtain ⟨pair, hpair, d, hd, hderive⟩ := exists_left_of_forall₂ h.wrappers hmem
  exact ⟨pair, hpair, d, hd, hderive⟩

end Taken

/-! ## Runs -/

/-- A run of pairs that succeeds has taken up every pair. -/
theorem addAll_taken :
    ∀ {rest before : List (ForeignFunction × Wrapping)} {draft last : Draft}, draft.Taken v before →
      draft.addAll v rest = (last, none) → last.Taken v (before ++ rest) := by
  intro rest
  induction rest with
  | nil =>
    intro before draft last htaken h
    cases h
    rw [List.append_nil]
    exact htaken
  | cons pair rest ih =>
    obtain ⟨f, w⟩ := pair
    intro before draft last htaken h
    rw [addAll] at h
    split at h
    · rename_i next hadd
      rw [List.append_cons]
      exact ih (htaken.step hadd) h
    · cases h

/-- A run that fails has taken up the pairs before the one that is refused. -/
theorem addAll_eq_error {e : GenerationError} :
    ∀ {rest before : List (ForeignFunction × Wrapping)} {draft last : Draft}, draft.Taken v before →
      draft.addAll v rest = (last, some e) →
      ∃ read f w after, before ++ rest = read ++ (f, w) :: after ∧ last.Taken v read ∧
          last.add v (f, w) = .error e := by
  intro rest
  induction rest with
  | nil =>
    intro before draft last _ h
    cases h
  | cons pair rest ih =>
    obtain ⟨f, w⟩ := pair
    intro before draft last htaken h
    rw [addAll] at h
    split at h
    · rename_i next hadd
      rw [List.append_cons]
      exact ih (htaken.step hadd) h
    · rename_i hadd
      cases h
      exact ⟨before, f, w, rest, rfl, htaken, hadd⟩

end Draft

/-! ## Units -/

namespace FunctionCatalog

variable {c : FunctionCatalog} {o : Options} {v : Variant}

/-- A unit holds what the pairs of its backend give. -/
theorem assemble_taken {u : SourceUnit} (h : c.assemble o v = .ok u) :
    Draft.Taken v (wrappingPairs (c.forBackend v.backend)) ⟨u.declarations, u.wrappers⟩ := by
  unfold assemble at h
  split at h
  · cases h
  · rename_i draft hdraft
    cases h
    exact Draft.addAll_taken .empty hdraft

/-- The imports of a unit depend on its wrappers. -/
theorem uses_eq {u : SourceUnit} (h : c.assemble o v = .ok u) :
    u.uses = if u.wrappers.any Wrapper.allocates && !o.uses.contains bufferImport then o.uses ++
        [bufferImport] else o.uses := by
  unfold assemble at h
  split at h
  · cases h
  · cases h
    rfl

/-- A unit that cannot be assembled has a pair that is refused after those before it have been taken
up. -/
theorem assemble_eq_error {e : GenerationError} (h : c.assemble o v = .error e) :
    ∃ read f w after draft, wrappingPairs (c.forBackend v.backend) = read ++ (f, w) :: after ∧
      Draft.Taken v read draft ∧ draft.add v (f, w) = .error e := by
  unfold assemble at h
  split at h
  · rename_i draft e' hdraft
    cases h
    obtain ⟨read, f, w, after, hpairs, htaken, hadd⟩ := Draft.addAll_eq_error .empty hdraft
    exact ⟨read, f, w, after, draft, hpairs, htaken, hadd⟩
  · cases h

end FunctionCatalog

/-! ## A sample -/

/-- The parameters of the sample. -/
def sampleParameters : ParameterCatalog :=
  ⟨"dilithium", "PQCLEAN", [⟨2, 1312, 2528, 2420, [.clean, .avx2]⟩]⟩

/-- The portable variant of the sample. -/
def sampleVariant : Variant :=
  ⟨"dilithium", "PQCLEAN", ⟨2, 1312, 2528, 2420, [.clean, .avx2]⟩, .clean⟩

/-- The unit of the portable variant. -/
def sampleUnit : SourceUnit :=
  FunctionCatalog.finish sampleVariant {} (sampleCatalog.draft sampleVariant).1

end Bindery
