/-
# Bindery.Proofs.Unit.Modules -- the modules of a run.

A run makes one unit for every selected variant and the index declares one module for every selected
variant, in the same order. So modules are distinct in both places under one condition on the
parameter catalog: no parameter set lists a backend twice for which units are generated.  Levels are
checked when a catalog is read, lists of backends are not, and a catalog that lists a backend twice
has two units of one module.
-/
import Bindery.Proofs.Catalog.Variants
import Bindery.Proofs.Unit.Drafts
import Bindery.Source.ModuleIndex

namespace Bindery

/-! ## Units -/

namespace FunctionCatalog

variable {c : FunctionCatalog} {p : ParameterCatalog} {o : Options}

/-- A unit is that of its variant. -/
theorem assemble_variant {v : Variant} {u : SourceUnit} (h : c.assemble o v = .ok u) :
    u.variant = v := by
  unfold assemble at h
  split at h <;> cases h
  rfl

/-- A unit of a run is that of a selected variant. -/
theorem assemble_of_mem {units : List SourceUnit} (h : c.assembleAll p o = .ok units)
    {u : SourceUnit} (hu : u ∈ units) :
    u.variant ∈ p.selected o ∧ c.assemble o u.variant = .ok u := by
  rw [assembleAll, bind_eq_ok_iff] at h
  obtain ⟨_, -, hunits⟩ := h
  obtain ⟨v, hv, hassemble⟩ := exists_left_of_forall₂ (mapM_eq_ok_iff.mp hunits) hu
  obtain rfl := assemble_variant hassemble
  exact ⟨hv, hassemble⟩

/-- The units of a run are those of the selected variants, in order. -/
theorem assembleAll_variants {units : List SourceUnit} (h : c.assembleAll p o = .ok units) :
    units.map (·.variant) = p.selected o := by
  rw [assembleAll, bind_eq_ok_iff] at h
  obtain ⟨_, -, hunits⟩ := h
  rw [← List.map_id (p.selected o)]
  exact (map_eq_map_of_forall₂ (mapM_eq_ok_iff.mp hunits) fun _ _ hunit =>
    (assemble_variant hunit).symm).symm

end FunctionCatalog

/-! ## The index -/

/-- The module that a line of source declares, if it declares one. -/
def Source.declaredModule? (line : String) : Option String :=
  match line.toList with
  | 'p' :: 'u' :: 'b' :: ' ' :: 'm' :: 'o' :: 'd' :: ' ' :: rest =>
    if rest.getLast? = some ';' then some (String.ofList rest.dropLast) else none
  | _ => none

/-- The modules that an index declares, line by line. -/
def ParameterCatalog.declaredModules (p : ParameterCatalog) (o : Options)
    (fileOf : Variant → String) : List String :=
  ((p.selected o).flatMap fun v => v.indexLines (fileOf v)).filterMap Source.declaredModule?

theorem Source.declaredModule?_declaration (name : String) :
    declaredModule? ("pub mod " ++ name ++ ";") = some name := by
  simp [declaredModule?]

/-- The entry of a variant declares the variant's module and no other. -/
theorem Variant.declaredModules_indexLines (v : Variant) (file : String) :
    (v.indexLines file).filterMap Source.declaredModule? = [v.moduleName] := by
  have hgate : Source.declaredModule? (Source.gateLine v.predicates) = none := by
    simp [Source.gateLine, Source.declaredModule?]
  have hfile : (Source.fileLines v.moduleName file).filterMap Source.declaredModule? = [] := by
    rw [Source.fileLines]
    split
    · rfl
    · simp [Source.declaredModule?]
  rw [indexLines, List.filterMap_append, List.filterMap_append, hfile,
    List.filterMap_cons_none hgate, List.filterMap_cons_some (Source.declaredModule?_declaration _)]
  rfl

/-- The index declares the modules of the selected variants, in order. -/
theorem ParameterCatalog.declaredModules_eq (p : ParameterCatalog) (o : Options)
    (fileOf : Variant → String) :
    p.declaredModules o fileOf = (p.selected o).map Variant.moduleName := by
  simp only [declaredModules, List.filterMap_flatMap, Variant.declaredModules_indexLines]
  exact List.map_eq_flatMap.symm

/-! ## Runs -/

/-- **The variants of an accepted catalog have distinct modules exactly where no parameter set lists
a backend twice**, and so have the units and the index of a run exactly where no set lists a backend
twice for which units are generated. -/
theorem modules_distinct_iff_listed_once {text : String} {p : ParameterCatalog}
    (hparse : ParameterCatalog.parse text = .ok p) :
    ((p.variants.map Variant.moduleName).Nodup ↔ ∀ set ∈ p.sets, set.backends.Nodup) ∧
      ∀ o : Options,
        (∀ (c : FunctionCatalog) (units : List SourceUnit), c.assembleAll p o = .ok units →
          ((units.map fun u => u.variant.moduleName).Nodup ↔ p.ListsOnce o)) ∧
        ∀ fileOf, ((p.declaredModules o fileOf).Nodup ↔ p.ListsOnce o) := by
  have hlevels := ParameterCatalog.nodup_levels hparse
  refine ⟨?_, ?_⟩
  · rw [ParameterCatalog.variants_eq_selected, ParameterCatalog.nodup_moduleNames_iff hlevels,
      ParameterCatalog.listsOnce_default_iff]
  · intro o
    refine ⟨?_, ?_⟩
    · intro c units hunits
      rw [← ParameterCatalog.nodup_moduleNames_iff hlevels, ← FunctionCatalog.assembleAll_variants
        hunits, List.map_map]
      rfl
    · intro fileOf
      rw [ParameterCatalog.declaredModules_eq, ParameterCatalog.nodup_moduleNames_iff hlevels]

/-- The variants of the sample, whose one parameter set lists two backends, have distinct modules.
-/
theorem sample_modules_distinct :
    ParameterCatalog.parse "[\"dilithium\",\"PQCLEAN\",[[2,1312,2528,2420,[\"clean\",\"avx2\"]]]]" =
      .ok sampleParameters ∧
      (sampleParameters.variants.map Variant.moduleName).Nodup := by
  have hparse :
    ParameterCatalog.parse "[\"dilithium\",\"PQCLEAN\",[[2,1312,2528,2420,[\"clean\",\"avx2\"]]]]" =
      .ok sampleParameters := by decide +kernel
  refine ⟨hparse, (modules_distinct_iff_listed_once hparse).1.mpr ?_⟩
  simp [sampleParameters]

/-- A parameter set may list a backend twice.  Then two variants, two units and two entries of the
index share a module. -/
theorem repeated_backend_repeats_module :
    ∃ p units,
      ParameterCatalog.parse
      "[\"dilithium\",\"PQCLEAN\",[[2,1312,2528,2420,[\"clean\",\"clean\"]]]]" = .ok p ∧
      p.variants.map Variant.moduleName = ["dilithium2_clean", "dilithium2_clean"] ∧
      FunctionCatalog.assembleAll ⟨[]⟩ p {} = .ok units ∧
      units.map (fun u => u.variant.moduleName) = ["dilithium2_clean", "dilithium2_clean"] ∧
      p.declaredModules {} (fun v => Source.moduleFile v.moduleName) =
          ["dilithium2_clean", "dilithium2_clean"] := by
  refine ⟨⟨"dilithium", "PQCLEAN", [⟨2, 1312, 2528, 2420, [.clean, .clean]⟩]⟩,
    _, by decide +kernel, by decide +kernel, rfl, by decide +kernel, by decide +kernel⟩

end Bindery
