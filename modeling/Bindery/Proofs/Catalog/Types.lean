/-
# Bindery.Proofs.Catalog.Types -- what the text of an accepted type promises.

A type is kept as text, with single spaces between its words.  So its text stands on one line, and
it tells the type: a pointer's text starts with a star and the text of a value type does not.
`ForeignType.Spelled` says this of a type, and every type of an accepted catalog is spelled.
-/
import Bindery.Catalog.Document
import Bindery.Proofs.Catalog.Accepted
import Bindery.Proofs.Catalog.TypeGrammar

namespace Bindery

/-! ## Spelled types -/

namespace ForeignType

/-- **`t.Spelled`** -- the text of the type stands on one line, and a value type does not look like
a pointer. -/
def Spelled : ForeignType → Prop
  | .value text => '\n' ∉ text.toList ∧ text.toList.head? ≠ some '*'
  | .pointer _ pointee => '\n' ∉ pointee.toList

variable {t t' : ForeignType}

/-- Words that spell a type make it spelled. -/
theorem Grammar.spelled {tokens : List (List Char)} (h : Grammar tokens t)
    (hwords : ∀ token ∈ tokens, Text.IsToken token) :
    t.Spelled := by
  cases h with
  | @value first others hother =>
    rw [Spelled, joined, String.toList_ofList]
    refine ⟨Text.lineFeed_notMem_intercalate hwords, ?_⟩
    rwa [Text.head?_intercalate (hwords first List.mem_cons_self)]
  | pointer _ _ =>
    rw [List.forall_mem_cons] at hwords
    rw [Spelled, joined, String.toList_ofList]
    exact Text.lineFeed_notMem_intercalate hwords.2

/-- A type that is read is spelled. -/
theorem spelled_of_parse {s : String} (h : parse s = .ok t) : t.Spelled :=
  (parse_eq_ok_iff.mp h).spelled fun _ htoken => Text.isToken_of_mem_words htoken

/-- The text of a spelled type stands on one line. -/
theorem Spelled.lineFeed_notMem_render (h : t.Spelled) : '\n' ∉ t.render.toList := by
  cases t with
  | value text => exact h.1
  | pointer access pointee =>
    have hpointee : '\n' ∉ pointee.toList := h
    cases access <;> simp [render, hpointee]

/-- The text of a pointer starts with a star. -/
theorem head?_render_pointer (access : Access) (pointee : String) :
    (pointer access pointee).render.toList.head? = some '*' := by
  cases access <;> simp [render]

/-- **The text of a spelled type tells the type.** -/
theorem Spelled.render_inj (h : t.Spelled) (h' : t'.Spelled) (hrender : t.render = t'.render) :
    t = t' := by
  cases t with
  | value text =>
    cases t' with
    | value text' => exact congrArg value hrender
    | pointer access' pointee' =>
      have hstar := head?_render_pointer access' pointee'
      rw [← hrender] at hstar
      exact absurd hstar h.2
  | pointer access pointee =>
    cases t' with
    | value text' =>
      have hstar := head?_render_pointer access pointee
      rw [hrender] at hstar
      exact absurd hstar h'.2
    | pointer access' pointee' =>
      have hchars : (pointer access pointee).render.toList =
          (pointer access' pointee').render.toList :=
        congrArg String.toList hrender
      cases access <;> cases access'
      case shared.shared =>
        exact congrArg (pointer .shared) (String.append_right_inj _ |>.mp hrender)
      case exclusive.exclusive =>
        exact congrArg (pointer .exclusive) (String.append_right_inj _ |>.mp hrender)
      all_goals simp [render] at hchars

end ForeignType

/-! ## Accepted catalogs -/

/-- **`f.Spelled`** -- all types of the function are spelled. -/
structure ForeignFunction.Spelled (f : ForeignFunction) : Prop where
  arguments : ∀ a ∈ f.arguments, a.type.Spelled
  returns : ∀ t ∈ f.returns, t.Spelled

/-- What holds of every type that is read holds of the types of a function that an entry describes.
-/
theorem FunctionEntry.Describes.forall_types {P : ForeignType → Prop}
    (hread : ∀ s t, ForeignType.parse s = .ok t → P t)
    {e : FunctionEntry} {f : ForeignFunction} (h : e.Describes f) : (∀ a ∈ f.arguments, P a.type) ∧
        ∀ t ∈ f.returns, P t := by
  constructor
  · intro a ha
    obtain ⟨entry, -, hreads⟩ := exists_left_of_forall₂ h.arguments ha
    exact hread _ _ hreads.2
  · intro t ht
    have hreturns := h.returns
    generalize e.returns = text at hreturns
    rw [Option.mem_def.mp ht] at hreturns
    cases hreturns with
    | type _ hparse => exact hread _ _ hparse

/-- What holds of every type that is read holds of the types of an accepted catalog. -/
theorem FunctionCatalog.forall_types {P : ForeignType → Prop}
    (hread : ∀ s t, ForeignType.parse s = .ok t → P t) {text : String}
    {c : FunctionCatalog} (h : parse text = .ok c) {f : ForeignFunction} (hf : f ∈ c.functions) :
    (∀ a ∈ f.arguments, P a.type) ∧ ∀ t ∈ f.returns, P t := by
  obtain ⟨e, hdescribes⟩ := exists_describes_of_parse h hf
  exact hdescribes.forall_types hread

/-- The types of an accepted catalog are spelled. -/
theorem FunctionCatalog.spelled_of_parse {text : String} {c : FunctionCatalog}
    (h : parse text = .ok c) {f : ForeignFunction}
    (hf : f ∈ c.functions) : f.Spelled := by
  obtain ⟨harguments, hreturns⟩ := forall_types (fun _ _ => ForeignType.spelled_of_parse) h hf
  exact ⟨harguments, hreturns⟩

end Bindery
