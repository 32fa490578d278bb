/-
# Bindery.Proofs.Wrapper.Bindings -- where a declaration departs from the catalog.

The raw declaration has to be what the foreign library says, so it repeats the catalog.  There is
one exception: the buffer of an output has the type that the output points to, so an argument that
is passed as a pointer into this buffer is declared as a pointer to that type.  `Wrapping.Recasts`
says when this is another type than the catalog's, which takes an asserted cast; `Wrapping.Binds`
says that the declared type of an argument departs from the catalog in this case alone, and then in
its pointee alone.
-/
import Bindery.Wrapper.Signature
import Bindery.Proofs.Wrapper.Table
import Mathlib.Data.List.Nodup

namespace Bindery

/-! ## The rule -/

/-- What may be done through a pointer. -/
def ForeignType.access? : ForeignType → Option Access
  | .value _ => none
  | .pointer access _ => some access

/-- **`w.Recasts a b`** -- the catalog asserts a cast, and `a` maps from the output `b`, which
points to another type. -/
structure Wrapping.Recasts (w : Wrapping) (a b : Argument) : Prop where
  asserted : w.pointees = .asserted
  source : w.sources.find? a.name = some b.name
  output : b.name ∈ w.outputs
  differ : b.type.pointee? ≠ a.type.pointee?

/-- **`w.Binds f a type`** -- the argument is declared with this type: that of the catalog, unless a
cast from an output gives it the output's pointee.  What may be done through a pointer never
changes. -/
structure Wrapping.Binds (f : ForeignFunction) (w : Wrapping) (a : Argument) (type : ForeignType) :
    Prop where
  access : type.access? = a.type.access?
  departs : type ≠ a.type → ∃ b ∈ f.arguments, w.Recasts a b ∧
    ∃ pointee, b.type.pointee? = some pointee ∧ a.type.withPointee? pointee = some type

theorem Wrapping.binds_self (f : ForeignFunction) (w : Wrapping) (a : Argument) :
    w.Binds f a a.type :=
  ⟨rfl, fun h => absurd rfl h⟩

/-! ## Rows -/

/-- What the rule of a row gives for every position holds of the arguments and the rows side by
side. -/
theorem Scanned.forall₂ {w : Wrapping} {args : List Argument} {rows : List Row}
    {R : Argument → Row → Prop}
    (h : Scanned w args rows) (hR : ∀ i a r, args[i]? = some a → rows[i]? = some r →
    RowFits w (rows.take i) a r → R a r) :
    List.Forall₂ R args rows := by
  rw [List.forall₂_iff_get]
  refine ⟨h.length.symm, fun i hi hi' => ?_⟩
  have ha : args[i]? = some args[i] := List.getElem?_eq_getElem hi
  have hr : rows[i]? = some rows[i] := List.getElem?_eq_getElem hi'
  exact hR i _ _ ha hr (h.fits ha hr)

namespace TableFits

variable {f : ForeignFunction} {w : Wrapping} {t : ArgumentTable}

/-- The row above that a source is found in belongs to an argument. -/
theorem argument_of_source (h : TableFits f w t) {i position : Nat} {source : Row}
    (hsource : (t.rows.take i)[position]? = some source) :
    ∃ b ∈ f.arguments, b.name = source.name ∧ b.type = source.declared ∧
        (source.role = .output ↔ b.name ∈ w.outputs) := by
  obtain ⟨j, b, hb, hfits⟩ :=
    h.rows.argument_of_mem (List.mem_of_mem_take (List.mem_of_getElem? hsource))
  exact ⟨b, List.mem_of_getElem? hb, hfits.name.symm, hfits.declared.symm, hfits.output_iff⟩

/-- A row that obeys its rule declares its argument by the rule. -/
theorem binds_of_fits (h : TableFits f w t) {i : Nat} {a : Argument} {r : Row}
    (hfits : RowFits w (t.rows.take i) a r) :
    w.Binds f a r.binding := by
  cases hfits with
  | output _ _ => exact w.binds_self f a
  | plain _ _ => exact w.binds_self f a
  | @mapped position source access sourceAccess pointee sourcePointee _ hfind hsource _ htype
      hdeclared hagree _ =>
    obtain ⟨b, hb, hbname, hbtype, houtput⟩ := h.argument_of_source hsource
    show w.Binds f a (if source.role = .output then ForeignType.pointer access
      sourcePointee else a.type)
    split
    · rename_i hrole
      refine ⟨by rw [htype]; rfl, fun hdeparts =>
        ⟨b, hb, ?_, sourcePointee, by rw [hbtype, hdeclared]; rfl, by rw [htype]; rfl⟩⟩
      have hne : sourcePointee ≠ pointee := by
        rintro rfl
        exact hdeparts htype.symm
      refine ⟨?_, by rw [hbname]; exact hfind, houtput.mp hrole, ?_⟩
      · -- under the other rule the pointees would agree
        cases hrule : w.pointees with
        | identical => exact absurd (hagree hrule).symm hne
        | asserted => rfl
      · rw [hbtype, hdeclared, htype]
        exact fun hsame => hne (Option.some.inj hsame)
    · exact w.binds_self f a

/-- Where names are distinct, a cast from an output to another pointee does change the declared
type. -/
theorem binding_ne_of_recasts (h : TableFits f w t) (hnodup : (f.arguments.map (·.name)).Nodup)
    {i : Nat} {a b : Argument} {r : Row}
    (hfits : RowFits w (t.rows.take i) a r) (hb : b ∈ f.arguments) (hrecasts : w.Recasts a b) :
    r.binding ≠ a.type := by
  have hkey : a.name ∈ w.sources.keys := NameMap.mem_keys_iff.mpr ⟨b.name, hrecasts.source⟩
  cases hfits with
  | output hlisted _ => exact absurd hkey (h.names.outputs_unmapped a.name hlisted)
  | plain _ hnone =>
    have hsource := hrecasts.source
    rw [hnone] at hsource
    cases hsource
  | @mapped position source access sourceAccess pointee sourcePointee _ hfind hsource _ htype
      hdeclared _ _ =>
    obtain ⟨b', hb', hbname, hbtype, houtput⟩ := h.argument_of_source hsource
    have hname : b.name = source.name := Option.some.inj (hrecasts.source.symm.trans hfind)
    obtain rfl := List.inj_on_of_nodup_map hnodup hb' hb (hbname.trans hname.symm)
    have hdiffer := hrecasts.differ
    rw [hbtype, hdeclared, htype] at hdiffer
    show (if source.role = .output then ForeignType.pointer access sourcePointee else a.type) ≠
      a.type
    rw [if_pos (houtput.mpr hrecasts.output), htype]
    rintro ⟨⟩
    exact hdiffer rfl

/-! ## Declarations -/

/-- The parameters of the declaration, beside the arguments that they come from. -/
theorem forall₂_params {R : Argument → String × ForeignType → Prop} (h : TableFits f w t)
    (stem : String)
    (hR : ∀ i a r, RowFits w (t.rows.take i) a r → a ∈ f.arguments → R a (r.name, r.binding)) :
    List.Forall₂ R f.arguments (t.declaration stem f).params := by
  rw [ArgumentTable.declaration, List.forall₂_map_right_iff]
  exact h.rows.forall₂ fun i a r ha _ hfits => hR i a r hfits (List.mem_of_getElem? ha)

/-- **Every argument is declared by the rule**, under its own name. -/
theorem params_bind (h : TableFits f w t) (stem : String) :
    List.Forall₂ (fun a p => p.1 = a.name ∧ w.Binds f a p.2) f.arguments
        (t.declaration stem f).params :=
  h.forall₂_params stem fun _ _ _ hfits _ => ⟨hfits.name, h.binds_of_fits hfits⟩

/-- Without a cast to another pointee the declaration is the catalog's. -/
theorem declaration_eq (h : TableFits f w t) (hnone : ∀ a ∈ f.arguments, ∀ b ∈ f.arguments,
    ¬ w.Recasts a b) (stem : String) :
    t.declaration stem f = ⟨stem ++ f.name, f.arguments.map fun a => (a.name, a.type),
        f.returns⟩ := by
  have hsame : List.Forall₂ (fun a p => (a.name, a.type) = p) f.arguments
      (t.declaration stem f).params := by
    refine h.forall₂_params stem fun i a r hfits ha => ?_
    have htype : r.binding = a.type := by
      by_contra hdeparts
      obtain ⟨b, hb, hrecasts, -⟩ := (h.binds_of_fits hfits).departs hdeparts
      exact hnone a ha b hb hrecasts
    rw [hfits.name, htype]
  have hparams : (t.declaration stem f).params = f.arguments.map fun a => (a.name, a.type) := by
    have hmap := map_eq_map_of_forall₂ hsame fun _ _ heq => heq
    rw [List.map_id'] at hmap
    exact hmap.symm
  rw [← hparams]
  rfl

end TableFits

end Bindery
