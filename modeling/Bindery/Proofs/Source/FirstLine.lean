/-
# Bindery.Proofs.Source.FirstLine -- what the first line of a unit tells.

The first line of a unit is a comment that names the feature and the backend of its variant.  So
units of different variants of one scheme have different texts, whatever else they hold.  And the
text of a unit starts with a slash, which no line of a manifest does.
-/
import Bindery.Project.Manifest
import Bindery.Proofs.Catalog.Variants
import Bindery.Source.Unit

namespace Bindery

/-! ## The comment -/

/-- The text of a unit up to the name of its variant's backend, and what comes after it. -/
theorem SourceUnit.exists_render_eq (u : SourceUnit) :
    ∃ rest, u.render =
      "//! FFI bindings and safe wrappers for " ++ u.variant.feature ++
          (" (" ++ (u.variant.backend.name ++ (")" ++ rest))) := by
  obtain ⟨others, hlines⟩ : ∃ others, u.lines =
      ("//! FFI bindings and safe wrappers for " ++ u.variant.feature ++ " (" ++
          u.variant.backend.name ++ ").") :: others :=
    ⟨_, rfl⟩
  have hdot : ")." = ")" ++ "." := by decide
  refine ⟨"." ++ ("\n" ++ Source.ofLines others), ?_⟩
  rw [render, hlines, Source.ofLines, List.map_cons, String.join_cons, hdot]
  simp only [String.append_assoc, Source.ofLines]

/-- A level is read off up to the blank after it. -/
theorem Variant.levelText_blank_inj {v w : Variant} {rest rest' : String}
    (h : v.levelText ++ (" (" ++ rest) = w.levelText ++ (" (" ++ rest')) :
    v.parameters.level = w.parameters.level ∧ rest = rest' := by
  have hblank : ∀ v : Variant, ' ' ∉ v.levelText.toList := by
    intro v hmem
    exact absurd (isDigit_of_mem_levelText hmem) (by decide)
  have hchars : v.levelText.toList ++ ' ' :: '(' :: rest.toList = w.levelText.toList ++
      ' ' :: '(' :: rest'.toList := by
    simpa using congrArg String.toList h
  obtain ⟨hlevel, hrest⟩ := Text.append_separator_inj hchars (hblank v) (hblank w)
  exact ⟨level_eq_of_levelText hlevel, String.toList_inj.mp (List.cons.inj hrest).2⟩

/-- A backend is read off up to the bracket after it. -/
theorem Backend.name_bracket_inj {b b' : Backend} {rest rest' : String}
    (h : b.name ++ (")" ++ rest) = b'.name ++ (")" ++ rest')) : b = b' := by
  have hbracket : ∀ b : Backend, ')' ∉ b.name.toList := by
    intro b
    cases b <;> decide
  have hchars : b.name.toList ++ ')' :: rest.toList = b'.name.toList ++ ')' :: rest'.toList := by
    simpa using congrArg String.toList h
  exact name_injective
    (String.toList_inj.mp (Text.append_separator_inj hchars (hbracket b) (hbracket b')).1)

/-- **Units of one scheme with one text are of one level and one backend.** -/
theorem SourceUnit.variant_of_render {u u' : SourceUnit}
    (hscheme : u.variant.scheme = u'.variant.scheme)
    (h : u.render = u'.render) :
    u.variant.parameters.level = u'.variant.parameters.level ∧ u.variant.backend =
        u'.variant.backend := by
  obtain ⟨rest, hrest⟩ := u.exists_render_eq
  obtain ⟨rest', hrest'⟩ := u'.exists_render_eq
  rw [hrest, hrest'] at h
  simp only [Variant.feature, hscheme, String.append_assoc, String.append_right_inj] at h
  obtain ⟨hlevel, hbackend⟩ := Variant.levelText_blank_inj h
  exact ⟨hlevel, Backend.name_bracket_inj hbackend⟩

/-! ## Manifests -/

/-- A document does not start with a slash. -/
theorem Toml.parse_eq_none_of_slash {text : String} {rest : List Char}
    (h : text.toList = '/' :: rest) : Toml.parse text = none := by
  have hlines : Toml.lines [] ('/' :: rest) = none := by
    rw [Toml.lines]
    simp [Toml.skipBlanks, Toml.isBlank, Toml.content?, Toml.pair?, Toml.path?, Toml.keyPath,
      Toml.simpleKey?, Toml.isKeyChar]
  simp [Toml.parse, h, hlines]

/-- **The text of a unit is no manifest.** -/
theorem SourceUnit.parse_render (u : SourceUnit) : Manifest.parse u.render = none := by
  obtain ⟨rest, hrest⟩ := u.exists_render_eq
  have hslash : ∃ chars, u.render.toList = '/' :: chars := by
    rw [hrest]
    exact ⟨_, by simp only [String.toList_append]; rfl⟩
  obtain ⟨chars, hchars⟩ := hslash
  rw [Manifest.parse, Toml.parse_eq_none_of_slash hchars]
  rfl

end Bindery
