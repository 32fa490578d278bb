/-
# Bindery.Proofs.Unit.Conflicts -- declarations depart from the catalog only over casts.

All wrappings of a function share its raw declaration, so a wrapping that needs another one than the
first is refused.  What a declaration says comes from the catalog, except where a cast is asserted
for an argument that maps from an output; so only such a cast can make two wrappings of a function
disagree, and a function that is wrapped once is never refused for it.
-/
import Bindery.Proofs.Unit.Success
import Bindery.Proofs.Wrapper.Acceptance
import Bindery.Proofs.Wrapper.Bindings

namespace Bindery

/-! ## Derivations that fail -/

/-- A signature fails over a raw value that is missing or left over. -/
theorem ArgumentTable.signature_eq_error {t : ArgumentTable} {f : ForeignFunction} {w : Wrapping}
    {fault : WrappingFault}
    (h : t.signature f w = .error fault) :
    (∃ convention, fault = .conventionWithoutReturn convention) ∨
        fault = .returnUnhandled (f.wrapperName w) := by
  simp only [signature, bind_eq_error_iff, pure_ne_error, and_false, exists_false, or_false] at h
  unfold returnShape at h
  split at h
  · cases h
  · cases h
    exact Or.inl ⟨_, rfl⟩
  · split at h
    · cases h
    · cases h
      exact Or.inr rfl
  · split at h <;> cases h

/-- A pair alone is in conflict with no declaration. -/
theorem Wrapping.derive_ne_conflict {f : ForeignFunction} {w : Wrapping} {stem wrapper : String}
    (hnodup : (f.arguments.map (·.name)).Nodup) :
    w.derive stem f ≠ .error (.declarationConflict wrapper) := by
  intro h
  simp only [derive, bind_eq_error_iff, pure_ne_error, and_false, exists_false, or_false] at h
  rcases h with h | ⟨t, -, h⟩
  · exact table_holds hnodup h
  · rcases ArgumentTable.signature_eq_error h with ⟨convention, h⟩ | h <;> cases h

/-! ## Wrappings that disagree -/

variable {f : ForeignFunction} {w w' : Wrapping} {stem : String} {d d' : Declaration}
  {x x' : Wrapper}

/-- Of two wrappings that declare a function differently, one casts an argument to another pointee.
-/
theorem Wrapping.recasts_of_ne (h : w.derive stem f = .ok (d, x))
    (h' : w'.derive stem f = .ok (d', x')) (hdiffer : d' ≠ d) :
    ∃ v ∈ [w, w'], ∃ a ∈ f.arguments, ∃ b ∈ f.arguments, v.Recasts a b := by
  obtain ⟨t, -, htable, -, rfl, -⟩ := derive_eq_ok_iff.mp h
  obtain ⟨t', -, htable', -, rfl, -⟩ := derive_eq_ok_iff.mp h'
  by_contra hnone
  apply hdiffer
  -- neither of them departs from the catalog
  have hcatalog : ∀ v ∈ [w, w'], ∀ a ∈ f.arguments, ∀ b ∈ f.arguments, ¬ v.Recasts a b :=
    fun v hv a ha b hb hrecasts => hnone ⟨v, hv, a, ha, b, hb, hrecasts⟩
  rw [(table_fits htable).declaration_eq (hcatalog w (by simp)), (table_fits htable').declaration_eq
    (hcatalog w' (by simp))]

/-- Two members of a list that differ are two. -/
theorem two_le_length_of_ne {α : Type} {xs : List α} {x y : α} (hx : x ∈ xs) (hy : y ∈ xs)
    (hne : x ≠ y) : 2 ≤ xs.length := by
  match xs with
  | [] => cases hx
  | [z] =>
    rw [List.mem_singleton] at hx hy
    exact absurd (hx.trans hy.symm) hne
  | _ :: _ :: _ => simp

/-- A conflict is reported over a function that has two wrappings or more, one of which casts an
argument to another pointee. -/
theorem FunctionCatalog.recasts_of_conflict {text : String} {c : FunctionCatalog}
    (hparse : parse text = .ok c) {o : Options}
    {v : Variant} {function wrapper : String}
    (h : c.assemble o v = .error (.inFunction function (.declarationConflict wrapper))) :
    ∃ f ∈ c.forBackend v.backend, f.name = function ∧ 2 ≤ f.wrappings.length ∧
      ∃ w ∈ f.wrappings, ∃ a ∈ f.arguments, ∃ b ∈ f.arguments, w.Recasts a b := by
  obtain ⟨read, f, w, after, draft, hpairs, htaken, hadd⟩ := assemble_eq_error h
  have hbefore : ∀ pair ∈ read ++ [(f, w)], pair ∈ wrappingPairs (c.forBackend v.backend) := by
    intro pair hpair
    rw [hpairs, List.append_cons]
    exact List.mem_append_left after hpair
  obtain ⟨hf, hw⟩ := mem_wrappingPairs_iff.mp (hbefore (f, w) (by simp))
  have hnodup := nodup_arguments hparse (mem_of_mem_forBackend hf)
  rcases Draft.add_eq_error hadd with ⟨fault, hfault, he⟩ | ⟨d, x, hderive, ⟨hnone, he⟩ | ⟨-, he⟩⟩
  · cases he
    exact absurd hfault (Wrapping.derive_ne_conflict hnodup)
  · cases he
    obtain ⟨w', hw', d', x', hderive', hdiffer⟩ := exists_other_of_declare (nodup_names hparse)
      (fun pair hpair => hbefore pair (List.mem_append_left _ hpair)) htaken hf hderive hnone
    have hne : w' ≠ w := by
      rintro rfl
      exact hdiffer (Prod.mk.inj (Except.ok.inj (hderive'.symm.trans hderive))).1
    obtain ⟨u, hu, hrecasts⟩ := Wrapping.recasts_of_ne hderive hderive' hdiffer
    refine ⟨f, hf, rfl, two_le_length_of_ne hw' hw hne, u, ?_, hrecasts⟩
    simp only [List.mem_cons, List.not_mem_nil, or_false] at hu
    rcases hu with rfl | rfl <;> assumption
  · cases he

/-- **A declaration departs from the catalog only where a cast is asserted.** It has the arguments
of the function under their names, in their order and with their access, and its return type; the
type of an argument is the catalog's, unless a cast is asserted and the argument maps from an output
that points to another type, and then it is a pointer of the same access to that type.  So a unit
reports a conflict of declarations only over a function that has two wrappings or more, one of which
does this. -/
theorem declarations_depart_only_over_casts :
    (∀ (f : ForeignFunction) (w : Wrapping) (t : ArgumentTable) (stem : String), w.table f = .ok t →
      (t.declaration stem f).symbol = stem ++ f.name ∧ (t.declaration stem f).returns = f.returns ∧
      List.Forall₂ (fun a p => p.1 = a.name ∧ w.Binds f a p.2) f.arguments
        (t.declaration stem f).params ∧
      ((f.arguments.map (·.name)).Nodup →
        List.Forall₂ (fun a p => ∀ b ∈ f.arguments, w.Recasts a b → p.2 ≠ a.type) f.arguments
          (t.declaration stem f).params)) ∧
    ∀ (text : String) (c : FunctionCatalog) (o : Options) (v : Variant) (function wrapper : String),
      FunctionCatalog.parse text = .ok c →
      c.assemble o v = .error (.inFunction function (.declarationConflict wrapper)) →
      ∃ f ∈ c.forBackend v.backend, f.name = function ∧ 2 ≤ f.wrappings.length ∧
        ∃ w ∈ f.wrappings, ∃ a ∈ f.arguments, ∃ b ∈ f.arguments, w.Recasts a b := by
  refine ⟨fun f w t stem htable => ?_, fun text c o v function wrapper hparse h =>
    FunctionCatalog.recasts_of_conflict hparse h⟩
  have hfits := table_fits htable
  exact ⟨rfl, rfl, hfits.params_bind stem, fun hnodup =>
      hfits.forall₂_params stem fun i a r hrow _ b hb hrecasts =>
    hfits.binding_ne_of_recasts hnodup hrow hb hrecasts⟩

/-- A function that packs into a signature what stands behind it, wrapped with a buffer of its own
and plainly.  Records are written by position. -/
def packText : String :=
  "[[[\"pack\",[[\"sig\",\"*mut Sig\"],[\"c\",\"*const Seed\"]],null,null,null," ++
    "[[\"\",\x7b\"c\":\"sig\"\x7d,[\"sig\"],null,\"explicit\"],[\"_plain\"]]]]]"

/-- The wrapping of the sample that casts. -/
def packWrapping : Wrapping :=
  ⟨"", ⟨[("c", "sig")]⟩, ["sig"], none, .asserted, none⟩

/-- The function of the sample. -/
def packFunction : ForeignFunction :=
  ⟨"pack", [⟨"sig", .pointer .exclusive "Sig"⟩, ⟨"c", .pointer .shared "Seed"⟩], none, none,
    [packWrapping, ⟨"_plain", ⟨[]⟩, [], none, .identical, none⟩]⟩

/-- The first wrapping declares the second argument as a pointer to the output's type, and the
second wrapping is refused for it. -/
theorem pack_departs_and_conflicts :
    FunctionCatalog.parse packText = .ok ⟨[packFunction]⟩ ∧
      (⟨[packFunction]⟩ : FunctionCatalog).assemble {} sampleVariant =
        .error (.inFunction "pack" (.declarationConflict "pack_plain")) ∧
      (∃ t, packWrapping.table packFunction = .ok t ∧
        (t.declaration "P_" packFunction).params =
          [("sig", .pointer .exclusive "Sig"), ("c", .pointer .shared "Sig")] ∧
        List.Forall₂ (fun a p => p.1 = a.name ∧ packWrapping.Binds packFunction a p.2)
          packFunction.arguments
          (t.declaration "P_" packFunction).params) ∧
      ∃ f ∈ [packFunction], f.name = "pack" ∧ 2 ≤ f.wrappings.length ∧
        ∃ w ∈ f.wrappings, ∃ a ∈ f.arguments, ∃ b ∈ f.arguments, w.Recasts a b := by
  have hparse : FunctionCatalog.parse packText = .ok ⟨[packFunction]⟩ := by decide +kernel
  have hconflict : (⟨[packFunction]⟩ : FunctionCatalog).assemble {} sampleVariant =
      .error (.inFunction "pack" (.declarationConflict "pack_plain")) := by decide +kernel
  have htable : packWrapping.table packFunction =
    .ok ⟨[⟨"sig", .pointer .exclusive "Sig", .output, .pointer .exclusive "Sig"⟩,
      ⟨"c", .pointer .shared "Seed", .mapped 0 true, .pointer .shared "Sig"⟩],
        ["sig"]⟩ := by decide +kernel
  obtain ⟨-, -, hbinds, -⟩ :=
    declarations_depart_only_over_casts.1 packFunction packWrapping _ "P_" htable
  exact ⟨hparse, hconflict, ⟨_, htable, rfl, hbinds⟩,
    declarations_depart_only_over_casts.2 packText _ {} sampleVariant "pack" "pack_plain"
      hparse hconflict⟩

end Bindery
