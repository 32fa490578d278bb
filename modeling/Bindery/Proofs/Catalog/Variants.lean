/-
# Bindery.Proofs.Catalog.Variants -- the names that the variants of one scheme give out.

A name is made by putting texts side by side: the scheme, the level in decimal, an underscore, and
what follows.  It can be taken apart again because digits are no underscores: two names that start
alike agree on the level and on everything behind the first underscore.  A parameter catalog is
accepted only with distinct levels, so the names of its variants repeat only where a parameter set
lists a backend twice.
-/
import Bindery.Catalog.Document
import Bindery.Proofs.Checks
import Bindery.Proofs.Text.Cuts
import Bindery.Unit.Assembly
import Mathlib.Data.List.Nodup

namespace Bindery

/-! ## Accepted catalogs -/

namespace ParameterCatalog

/-- No repeat is found exactly where the levels are distinct and none of them has been seen. -/
theorem firstRepeat?_eq_none_iff {seen levels : List Nat} :
    firstRepeat? seen levels = none ↔ levels.Nodup ∧ ∀ level ∈ levels, level ∉ seen := by
  induction levels generalizing seen with
  | nil => simp [firstRepeat?]
  | cons level rest ih =>
    rw [firstRepeat?]
    by_cases hseen : level ∈ seen
    · simp [hseen]
    · rw [if_neg hseen, ih, List.nodup_cons, List.forall_mem_cons]
      simp only [List.mem_cons, not_or]
      constructor
      · rintro ⟨hnodup, hnew⟩
        exact ⟨⟨fun hmem => (hnew level hmem).1 rfl, hnodup⟩, hseen, fun other hother =>
          (hnew other hother).2⟩
      · rintro ⟨⟨hnotin, hnodup⟩, -, hnew⟩
        exact ⟨hnodup, fun other hother => ⟨fun hsame => hnotin (hsame ▸ hother),
          hnew other hother⟩⟩

/-- The levels of an accepted catalog are distinct. -/
theorem nodup_levels {text : String} {p : ParameterCatalog} (h : parse text = .ok p) :
    (p.sets.map (·.level)).Nodup := by
  unfold parse at h
  split at h
  · unfold check at h
    split at h
    · cases h
    · split at h
      · cases h
      · rename_i hnone
        cases h
        exact (firstRepeat?_eq_none_iff.mp hnone).1
  · cases h

end ParameterCatalog

/-! ## Names taken apart -/

theorem Backend.name_injective : Function.Injective Backend.name := by
  intro b b' h
  have hback : ofName? b.name = ofName? b'.name := congrArg ofName? h
  rw [ofName?_name, ofName?_name] at hback
  exact Option.some.inj hback

namespace Variant

variable {v w : Variant}

/-- A level is written without underscores. -/
theorem underscore_notMem_levelText (v : Variant) : '_' ∉ v.levelText.toList := by
  rw [levelText, Nat.toList_repr]
  exact Nat.underscore_not_in_toDigits

/-- A level is written in digits. -/
theorem isDigit_of_mem_levelText {c : Char} (h : c ∈ v.levelText.toList) : c.isDigit = true := by
  rw [levelText, Nat.toList_repr] at h
  exact Nat.isDigit_of_mem_toDigits (by omega) (by omega) h

/-- The digits of a level tell the level. -/
theorem level_eq_of_levelText (h : v.levelText.toList = w.levelText.toList) :
    v.parameters.level = w.parameters.level := by
  simp only [levelText, Nat.toList_repr] at h
  calc v.parameters.level
      = Nat.ofDigitChars 10 (Nat.toDigits 10 v.parameters.level) 0 :=
        Nat.ofDigitChars_ten_toDigits.symm
    _ = Nat.ofDigitChars 10 (Nat.toDigits 10 w.parameters.level) 0 := by rw [h]
    _ = w.parameters.level := Nat.ofDigitChars_ten_toDigits

/-- A level is read off up to the first underscore. -/
theorem levelText_append_inj {rest rest' : String}
    (h : v.levelText ++ ("_" ++ rest) = w.levelText ++ ("_" ++ rest')) :
    v.parameters.level = w.parameters.level ∧ rest = rest' := by
  have hchars : v.levelText.toList ++ '_' :: rest.toList = w.levelText.toList ++
      '_' :: rest'.toList := by
    simpa using congrArg String.toList h
  obtain ⟨hlevel, hrest⟩ :=
    Text.append_separator_inj hchars v.underscore_notMem_levelText w.underscore_notMem_levelText
  exact ⟨level_eq_of_levelText hlevel, String.toList_inj.mp hrest⟩

/-- A module's name tells the level and the backend within a scheme. -/
theorem moduleName_inj (h : v.moduleName = w.moduleName) (hscheme : v.scheme = w.scheme) :
    v.parameters.level = w.parameters.level ∧ v.backend = w.backend := by
  simp only [moduleName, linkName, feature, hscheme, String.append_assoc,
    String.append_right_inj] at h
  obtain ⟨hlevel, hbackend⟩ := levelText_append_inj h
  exact ⟨hlevel, Backend.name_injective hbackend⟩

end Variant

/-! ## The variants of a catalog -/

/-- Whether units are generated for a backend. -/
def Options.keeps (o : Options) (backend : Backend) : Bool :=
  !o.skip.contains backend

namespace ParameterCatalog

variable {p : ParameterCatalog} {o : Options}

/-- The selected variants, parameter set by parameter set. -/
theorem selected_eq : p.selected o =
    p.sets.flatMap fun set => (set.backends.filter o.keeps).map fun backend =>
        ⟨p.scheme, p.library, set, backend⟩ := by
  rw [selected, variants, List.filter_flatMap]
  congr 1
  funext set
  rw [List.filter_map]
  rfl

theorem variants_eq_selected : p.variants = p.selected {} := by
  simp [selected]

/-- **`p.ListsOnce o`** -- no parameter set lists a backend twice for which units are generated. -/
def ListsOnce (p : ParameterCatalog) (o : Options) : Prop :=
  ∀ set ∈ p.sets, (set.backends.filter o.keeps).Nodup

/-- Where nothing is skipped, the condition is about whole lists. -/
theorem listsOnce_default_iff : p.ListsOnce {} ↔ ∀ set ∈ p.sets, set.backends.Nodup := by
  have hall : ∀ backends : List Backend, backends.filter (Options.keeps {}) = backends := by
    intro backends
    exact List.filter_eq_self.mpr fun _ _ => rfl
  simp only [ListsOnce, hall]

/-- The modules of the selected variants are distinct exactly where no set lists a backend twice. -/
theorem nodup_moduleNames_iff (hlevels : (p.sets.map (·.level)).Nodup) :
    ((p.selected o).map Variant.moduleName).Nodup ↔ p.ListsOnce o := by
  rw [selected_eq, List.map_flatMap, List.nodup_flatMap]
  simp only [List.map_map]
  constructor
  · rintro ⟨hsets, -⟩ set hset
    exact (hsets set hset).of_map
  · intro honce
    refine ⟨?_, ?_⟩
    · intro set hset
      refine (honce set hset).map_on ?_
      intro b _ b' _ hsame
      exact (Variant.moduleName_inj hsame rfl).2
    · -- modules of different sets differ in the level
      refine (List.pairwise_map.mp hlevels).imp ?_
      intro set set' hdiffer name hname hname'
      obtain ⟨b, -, rfl⟩ := List.mem_map.mp hname
      obtain ⟨b', -, hsame⟩ := List.mem_map.mp hname'
      exact hdiffer (Variant.moduleName_inj hsame rfl).1.symm

theorem scheme_of_mem_variants {v : Variant} (hv : v ∈ p.variants) : v.scheme = p.scheme := by
  simp only [variants, List.mem_flatMap, List.mem_map] at hv
  obtain ⟨set, -, b, -, rfl⟩ := hv
  rfl

/-- A catalog with distinct levels has one variant for each level and backend. -/
theorem eq_of_mem_variants (hlevels : (p.sets.map (·.level)).Nodup) {v w : Variant}
    (hv : v ∈ p.variants) (hw : w ∈ p.variants)
    (hlevel : v.parameters.level = w.parameters.level) (hbackend : v.backend = w.backend) :
    v = w := by
  simp only [variants, List.mem_flatMap, List.mem_map] at hv hw
  obtain ⟨set, hset, b, -, rfl⟩ := hv
  obtain ⟨set', hset', b', -, rfl⟩ := hw
  obtain rfl : set = set' := List.inj_on_of_nodup_map hlevels hset hset' hlevel
  obtain rfl : b = b' := hbackend
  rfl

end ParameterCatalog

end Bindery
