/-
# Bindery.Proofs.Catalog.Symbols -- symbols of different variants are different.

A symbol is a stem and a name side by side, and nothing marks where the one ends and the other
starts.  It can be taken apart all the same: within one scheme the stems share their start, the
level ends at the first underscore behind it, and so does the name of the backend.  So a symbol
tells its level, its backend and its name, whatever these names are, and two variants that differ in
level or backend give out no symbol twice.
-/
import Bindery.Proofs.Catalog.Variants
import Bindery.Proofs.Unit.Drafts
import Bindery.Proofs.Unit.Modules
import Bindery.Unit.Constants

namespace Bindery

/-! ## Backends -/

/-- The upper-cased name of a backend holds no underscore. -/
theorem Backend.underscore_notMem_upper (b : Backend) : '_' ∉ (Text.upper b.name).toList := by
  cases b <;> decide +kernel

/-- Backends differ in their upper-cased names. -/
theorem Backend.upper_name_injective {b b' : Backend} (h : Text.upper b.name = Text.upper b'.name) :
    b = b' := by
  have hdistinct : ∀ first ∈ Backend.all, ∀ second ∈ Backend.all,
      Text.upper first.name = Text.upper second.name → first = second := by decide +kernel
  have hall : ∀ b : Backend, b ∈ Backend.all := by
    intro b
    cases b <;> decide
  exact hdistinct b (hall b) b' (hall b') h

/-- A backend is read off up to the first underscore behind it. -/
theorem Backend.upper_append_inj {b b' : Backend} {rest rest' : String}
    (h : Text.upper b.name ++ ("_" ++ rest) = Text.upper b'.name ++ ("_" ++ rest')) :
    b = b' ∧ rest = rest' := by
  have hchars : (Text.upper b.name).toList ++ '_' :: rest.toList = (Text.upper b'.name).toList ++
      '_' :: rest'.toList := by
    simpa using congrArg String.toList h
  obtain ⟨hname, hrest⟩ :=
    Text.append_separator_inj hchars b.underscore_notMem_upper b'.underscore_notMem_upper
  exact ⟨upper_name_injective (String.toList_inj.mp hname), String.toList_inj.mp hrest⟩

/-! ## Stems -/

/-- **Within a scheme a symbol tells its level, its backend and the name behind its stem.** -/
theorem Variant.symbolStem_append_inj {v w : Variant} {name name' : String}
    (hscheme : v.scheme = w.scheme)
    (hlibrary : v.library = w.library) (h : v.symbolStem ++ name = w.symbolStem ++ name') :
    v.parameters.level = w.parameters.level ∧ v.backend = w.backend ∧ name = name' := by
  simp only [symbolStem, hscheme, hlibrary, String.append_assoc, String.append_right_inj] at h
  obtain ⟨hlevel, hbehind⟩ := levelText_append_inj h
  obtain ⟨hbackend, hname⟩ := Backend.upper_append_inj hbehind
  exact ⟨hlevel, hbackend, hname⟩

/-- The stem of a variant depends on the level and the backend alone within a scheme. -/
theorem Variant.symbolStem_eq {v w : Variant} (hscheme : v.scheme = w.scheme)
    (hlibrary : v.library = w.library)
    (hlevel : v.parameters.level = w.parameters.level) (hbackend : v.backend = w.backend) :
    v.symbolStem = w.symbolStem := by
  simp only [symbolStem, levelText, hscheme, hlibrary, hlevel, hbackend]

theorem ParameterCatalog.library_of_mem_variants {p : ParameterCatalog} {v : Variant}
    (hv : v ∈ p.variants) :
    v.library = p.library := by
  simp only [variants, List.mem_flatMap, List.mem_map] at hv
  obtain ⟨set, -, b, -, rfl⟩ := hv
  rfl

/-! ## Units -/

/-- The names that a unit gives out under the stem of its variant: the symbols that it links and the
constants that it declares. -/
def SourceUnit.globalNames (u : SourceUnit) : List String :=
  u.declarations.map (·.symbol) ++ u.variant.byteLengths.all.map (·.name)

/-- Every such name starts with the stem. -/
theorem FunctionCatalog.exists_name_of_mem_globalNames {c : FunctionCatalog} {o : Options}
    {v : Variant} {u : SourceUnit}
    (h : c.assemble o v = .ok u) {symbol : String} (hsymbol : symbol ∈ u.globalNames) :
    ∃ name, symbol = v.symbolStem ++ name := by
  rw [SourceUnit.globalNames, List.mem_append] at hsymbol
  rcases hsymbol with hdeclared | hconstant
  · obtain ⟨d, hd, rfl⟩ := List.mem_map.mp hdeclared
    obtain ⟨⟨f, w⟩, -, wrapper, hderive⟩ := (assemble_taken h).declarations d hd
    exact ⟨f.name, (Wrapping.derive_names hderive).1⟩
  · rw [assemble_variant h] at hconstant
    obtain ⟨constant, hmem, rfl⟩ := List.mem_map.mp hconstant
    simp only [ByteLengths.all, Variant.byteLengths, List.mem_cons, List.not_mem_nil,
      or_false] at hmem
    rcases hmem with rfl | rfl | rfl <;> exact ⟨_, rfl⟩

/-- **The variants of a catalog share no symbol.** Behind their stems stand any names whatever: two
symbols are equal only where level, backend and name are.  So units of variants that differ in level
or backend have no global name in common. -/
theorem variants_share_no_symbol {p : ParameterCatalog} {v w : Variant} (hv : v ∈ p.variants)
    (hw : w ∈ p.variants) :
    (∀ name name' : String, v.symbolStem ++ name = w.symbolStem ++ name' ↔
      v.parameters.level = w.parameters.level ∧ v.backend = w.backend ∧ name = name') ∧
    (v.parameters.level ≠ w.parameters.level ∨ v.backend ≠ w.backend →
      ∀ (c c' : FunctionCatalog) (o o' : Options) (u u' : SourceUnit), c.assemble o v = .ok u →
        c'.assemble o' w = .ok u' →
        ∀ symbol ∈ u.globalNames, symbol ∉ u'.globalNames) := by
  have hscheme : v.scheme = w.scheme :=
    (ParameterCatalog.scheme_of_mem_variants hv).trans
    (ParameterCatalog.scheme_of_mem_variants hw).symm
  have hlibrary : v.library = w.library :=
    (ParameterCatalog.library_of_mem_variants hv).trans
    (ParameterCatalog.library_of_mem_variants hw).symm
  refine ⟨?_, ?_⟩
  · intro name name'
    constructor
    · exact Variant.symbolStem_append_inj hscheme hlibrary
    · rintro ⟨hlevel, hbackend, rfl⟩
      rw [Variant.symbolStem_eq hscheme hlibrary hlevel hbackend]
  · intro hdiffer c c' o o' u u' hu hu' symbol hsymbol hsymbol'
    obtain ⟨name, hname⟩ := FunctionCatalog.exists_name_of_mem_globalNames hu hsymbol
    obtain ⟨name', hname'⟩ := FunctionCatalog.exists_name_of_mem_globalNames hu' hsymbol'
    obtain ⟨hlevel, hbackend, -⟩ :=
      Variant.symbolStem_append_inj hscheme hlibrary (hname.symm.trans hname')
    rcases hdiffer with hdiffer | hdiffer
    · exact hdiffer hlevel
    · exact hdiffer hbackend

/-- A scheme whose name ends in an underscore and a digit, at two levels of which one starts with
the other, and two backends. -/
def numberedParameters : ParameterCatalog :=
  ⟨"sig_2", "lib", [⟨1, 32, 64, 96, [.clean]⟩, ⟨12, 48, 96, 144, [.avx2, .clean]⟩]⟩

/-- No name behind the stem of one level gives a symbol of the other level. -/
theorem numbered_levels_share_no_symbol :
    ∃ v ∈ numberedParameters.variants, ∃ w ∈ numberedParameters.variants,
      v.symbolStem = "LIB_SIG_21_CLEAN_" ∧ w.symbolStem = "LIB_SIG_212_CLEAN_" ∧
      ∀ name name' : String, v.symbolStem ++ name ≠ w.symbolStem ++ name' := by
  refine ⟨⟨"sig_2", "lib", ⟨1, 32, 64, 96, [.clean]⟩,
    .clean⟩, by decide, ⟨"sig_2", "lib", ⟨12, 48, 96, 144, [.avx2, .clean]⟩,
    .clean⟩, by decide, by decide +kernel, by decide +kernel, ?_⟩
  intro name name' hsame
  obtain ⟨hlevel, -, -⟩ :=
    ((variants_share_no_symbol (p := numberedParameters) (by decide) (by decide)).1 name name').mp
    hsame
  exact absurd hlevel (by decide)

end Bindery
