/-
# Bindery.Proofs.Unit.Order -- a unit follows the catalog, entry by entry.

A unit is assembled pair by pair, with the names and symbols so far at hand, but none of this shows
in what a pair contributes: its wrapper is what the pair gives on its own.  Wrappers stand in the
order of the pairs by construction.  Declarations are made by the first wrapping of a function and
shared by the others, so their order takes an induction over whole functions: the pairs of one
function leave exactly one declaration more than there was before.
-/
import Bindery.Catalog.Document
import Bindery.Proofs.Catalog.Accepted
import Bindery.Proofs.Unit.Drafts

namespace Bindery

/-! ## What a pair gives on its own -/

/-- **`w.Wraps stem f wrapper`** -- the wrapper is what the table, the signature and the body of
this one pair give. -/
def Wrapping.Wraps (stem : String) (f : ForeignFunction) (w : Wrapping) (wrapper : Wrapper) :
    Prop :=
  ∃ t, w.table f = .ok t ∧ t.signature f w = .ok wrapper.signature ∧
    wrapper.body = t.body (stem ++ f.name) wrapper.signature.returns

/-- **`f.DeclaredBy stem d`** -- the declaration is that of every wrapping of the function. -/
def ForeignFunction.DeclaredBy (stem : String) (f : ForeignFunction) (d : Declaration) : Prop :=
  d.symbol = stem ++ f.name ∧ ∀ w ∈ f.wrappings, ∃ t, w.table f = .ok t ∧ t.declaration stem f = d

theorem Wrapping.wraps_of_derive {stem : String} {f : ForeignFunction} {w : Wrapping}
    {d : Declaration} {wrapper : Wrapper}
    (h : w.derive stem f = .ok (d, wrapper)) : w.Wraps stem f wrapper := by
  obtain ⟨t, s, htable, hsignature, -, rfl⟩ := derive_eq_ok_iff.mp h
  exact ⟨t, htable, hsignature, rfl⟩

/-! ## The pairs of one function -/

namespace Draft

variable {v : Variant} {draft last : Draft} {f : ForeignFunction}

/-- A run over two stretches of pairs is a run over the first and then one over the second. -/
theorem addAll_append {first second : List (ForeignFunction × Wrapping)}
    (h : draft.addAll v (first ++ second) = (last, none)) :
    ∃ next, draft.addAll v first = (next, none) ∧ next.addAll v second = (last, none) := by
  induction first generalizing draft with
  | nil => exact ⟨draft, rfl, h⟩
  | cons pair first ih =>
    rw [List.cons_append, addAll] at h
    rw [addAll]
    split at h
    · exact ih h
    · cases h

/-- A symbol that is declared already is not declared again. -/
theorem declare_of_declared {d : Declaration} {declarations : List Declaration}
    (h : draft.declare d = some declarations)
    (hdeclared : ∃ other ∈ draft.declarations, other.symbol = d.symbol) :
    declarations = draft.declarations := by
  unfold declare at h
  split at h
  · split at h
    · exact (Option.some.inj h).symm
    · cases h
  · rename_i hnone
    obtain ⟨other, hother, hsymbol⟩ := hdeclared
    exact absurd (beq_iff_eq.mpr hsymbol) (List.find?_eq_none.mp hnone other hother)

/-- A new symbol is declared after those that are there. -/
theorem declare_of_new {d : Declaration} {declarations : List Declaration}
    (h : draft.declare d = some declarations)
    (hnew : ∀ other ∈ draft.declarations, other.symbol ≠ d.symbol) :
    declarations = draft.declarations ++ [d] := by
  unfold declare at h
  split at h
  · rename_i first hfirst
    obtain ⟨hmem, hsymbol⟩ := mem_of_find?_key_eq_some hfirst
    exact absurd hsymbol (hnew first hmem)
  · exact (Option.some.inj h).symm

/-- Further wrappings of a function that is declared declare nothing. -/
theorem addAll_declared {ws : List Wrapping}
    (h : draft.addAll v (ws.map fun w => (f, w)) = (last, none))
    (hdeclared : ∃ other ∈ draft.declarations, other.symbol = v.symbolStem ++ f.name) :
    last.declarations = draft.declarations := by
  induction ws generalizing draft with
  | nil =>
    cases h
    rfl
  | cons w ws ih =>
    rw [List.map_cons, addAll] at h
    split at h
    · rename_i next hadd
      obtain ⟨d, wrapper, hderive, hdeclare, -, -⟩ := add_eq_ok hadd
      have hsame : next.declarations = draft.declarations := by
        apply declare_of_declared hdeclare
        rw [(Wrapping.derive_names hderive).1]
        exact hdeclared
      rw [← hsame] at hdeclared ⊢
      exact ih h hdeclared
    · cases h

/-- The wrappings of a new function declare its symbol once, after what is there. -/
theorem addAll_function (h : draft.addAll v (f.wrappings.map fun w => (f, w)) = (last, none))
    (hwrapped : f.wrappings ≠ [])
    (hnew : ∀ other ∈ draft.declarations, other.symbol ≠ v.symbolStem ++ f.name) :
    ∃ d, d.symbol = v.symbolStem ++ f.name ∧ last.declarations = draft.declarations ++ [d] := by
  obtain ⟨w, ws, hws⟩ := List.exists_cons_of_ne_nil hwrapped
  rw [hws, List.map_cons, addAll] at h
  split at h
  · rename_i next hadd
    obtain ⟨d, wrapper, hderive, hdeclare, -, -⟩ := add_eq_ok hadd
    have hsymbol : d.symbol = v.symbolStem ++ f.name := (Wrapping.derive_names hderive).1
    have hnext : next.declarations = draft.declarations ++ [d] := by
      apply declare_of_new hdeclare
      rw [hsymbol]
      exact hnew
    refine ⟨d, hsymbol, ?_⟩
    rw [← hnext]
    apply addAll_declared h
    rw [hnext]
    exact ⟨d, List.mem_append_right _ List.mem_cons_self, hsymbol⟩
  · cases h

/-! ## All functions -/

/-- The pairs of functions with new, distinct names declare one symbol for each function, in order.
-/
theorem addAll_functions {functions : List ForeignFunction}
    (h : draft.addAll v (wrappingPairs functions) = (last, none))
    (hnames : (functions.map (·.name)).Nodup)
    (hwrapped : ∀ f ∈ functions, f.wrappings ≠ [])
    (hnew : ∀ f ∈ functions, ∀ other ∈ draft.declarations, other.symbol ≠ v.symbolStem ++ f.name) :
    ∃ added, last.declarations = draft.declarations ++ added ∧
      List.Forall₂ (fun f d => d.symbol = v.symbolStem ++ f.name) functions added := by
  induction functions generalizing draft with
  | nil =>
    cases h
    exact ⟨[], (List.append_nil _).symm, .nil⟩
  | cons f functions ih =>
    rw [wrappingPairs, List.flatMap_cons] at h
    rw [List.map_cons, List.nodup_cons] at hnames
    rw [List.forall_mem_cons] at hwrapped hnew
    obtain ⟨next, hfirst, hrest⟩ := addAll_append h
    obtain ⟨d, hsymbol, hnext⟩ := addAll_function hfirst hwrapped.1 hnew.1
    -- the symbol that has been added belongs to no later function, since names are distinct
    have hnew' : ∀ g ∈ functions, ∀ other ∈ next.declarations,
        other.symbol ≠ v.symbolStem ++ g.name := by
      intro g hg other hother
      rw [hnext, List.mem_append, List.mem_singleton] at hother
      rcases hother with hother | rfl
      · exact hnew.2 g hg other hother
      · rw [hsymbol]
        intro hsame
        have hname : f.name = g.name := String.append_right_inj _ |>.mp hsame
        exact hnames.1 (List.mem_map.mpr ⟨g, hg, hname.symm⟩)
    obtain ⟨added, hlast, hadded⟩ := ih hrest hnames.2 hwrapped.2 hnew'
    refine ⟨d :: added, ?_, .cons hsymbol hadded⟩
    rw [hlast, hnext, List.append_assoc, List.singleton_append]

end Draft

/-! ## Units -/

/-- A backend has the functions that do not name backends and those that name it. -/
theorem FunctionCatalog.forBackend_eq (c : FunctionCatalog) (backend : Backend) :
    c.forBackend backend = c.functions.filter fun f => f.backends.all fun list =>
        list.contains backend := by
  apply List.filter_congr
  intro f _
  rw [ForeignFunction.appliesTo]
  cases f.backends <;> rfl

/-- The declarations of a unit are those of the functions that its backend has, in catalog order. -/
theorem FunctionCatalog.assemble_symbols {text : String} {c : FunctionCatalog}
    (hparse : parse text = .ok c) {o : Options}
    {v : Variant} {u : SourceUnit} (h : c.assemble o v = .ok u) :
    List.Forall₂ (fun f d => d.symbol = v.symbolStem ++ f.name) (c.forBackend v.backend)
        u.declarations := by
  unfold assemble at h
  split at h
  · cases h
  · rename_i draft hdraft
    cases h
    have hsublist : (c.forBackend v.backend).Sublist c.functions := List.filter_sublist
    obtain ⟨added, hlast, hadded⟩ :=
      Draft.addAll_functions hdraft ((nodup_names hparse).sublist (hsublist.map _))
      (fun f hf => wrappings_ne_nil hparse (mem_of_mem_forBackend hf)) (fun _ _ => nofun)
    rw [finish, hlast]
    exact hadded

/-- **A unit has one declaration for every function that its backend has and one wrapper for every
wrapping of such a function, both in catalog order**, with distinct symbols and distinct names; and
each of them is what its function and wrapping give on their own. -/
theorem assembled_in_catalog_order {text : String} {c : FunctionCatalog}
    (hparse : FunctionCatalog.parse text = .ok c)
    {o : Options} {v : Variant} {u : SourceUnit} (hunit : c.assemble o v = .ok u) :
    List.Forall₂ (fun f d => f.DeclaredBy v.symbolStem d)
        (c.functions.filter fun f => f.backends.all fun list => list.contains v.backend)
          u.declarations ∧
      (u.declarations.map (·.symbol)).Nodup ∧
      List.Forall₂ (fun pair wrapper => Wrapping.Wraps v.symbolStem pair.1 pair.2 wrapper)
        ((c.functions.filter fun f => f.backends.all fun list => list.contains v.backend).flatMap
          fun f => f.wrappings.map fun w => (f, w)) u.wrappers ∧
      (u.wrappers.map (·.signature.name)).Nodup := by
  rw [← FunctionCatalog.forBackend_eq]
  have htaken := FunctionCatalog.assemble_taken hunit
  refine ⟨?_, htaken.symbols, ?_, htaken.names⟩
  · have hsymbols := FunctionCatalog.assemble_symbols hparse hunit
    rw [List.forall₂_iff_zip] at hsymbols ⊢
    refine ⟨hsymbols.1, ?_⟩
    intro f d hzip
    refine ⟨hsymbols.2 hzip, ?_⟩
    intro w hw
    obtain ⟨hf, hd⟩ := List.of_mem_zip hzip
    obtain ⟨d', hd', wrapper, hderive⟩ :=
      htaken.declaration_of_mem (mem_wrappingPairs_iff.mpr ⟨hf, hw⟩)
    -- both declarations have the symbol of the function, and symbols are distinct
    have hsame : d' = d :=
      List.inj_on_of_nodup_map htaken.symbols hd' hd
        (by rw [(Wrapping.derive_names hderive).1, hsymbols.2 hzip])
    obtain ⟨t, s, htable, -, hdeclaration, -⟩ := Wrapping.derive_eq_ok_iff.mp hderive
    exact ⟨t, htable, hdeclaration.trans hsame⟩
  · refine htaken.wrappers.imp ?_
    rintro pair wrapper ⟨d, -, hderive⟩
    exact Wrapping.wraps_of_derive hderive

/-- The portable unit of the sample has the one function that its backend has, wrapped twice. -/
theorem sample_in_catalog_order :
    FunctionCatalog.parse sampleText = .ok sampleCatalog ∧ sampleCatalog.assemble {} sampleVariant =
      .ok sampleUnit ∧
      List.Forall₂ (fun f d => f.DeclaredBy sampleVariant.symbolStem d) [sampleFunction]
        sampleUnit.declarations ∧
      List.Forall₂ (fun w wrapper => w.Wraps sampleVariant.symbolStem sampleFunction wrapper)
        sampleFunction.wrappings
        sampleUnit.wrappers := by
  have hunit : sampleCatalog.assemble {} sampleVariant = .ok sampleUnit := by decide +kernel
  obtain ⟨hdeclared, -, hwrapped, -⟩ := assembled_in_catalog_order parse_sampleText hunit
  have hpairs : List.Forall₂ (fun pair wrapper => Wrapping.Wraps sampleVariant.symbolStem pair.1
    pair.2 wrapper)
      (sampleFunction.wrappings.map fun w => (sampleFunction, w)) sampleUnit.wrappers := hwrapped
  rw [List.forall₂_map_left_iff] at hpairs
  exact ⟨parse_sampleText, hunit, hdeclared, hpairs⟩

end Bindery
