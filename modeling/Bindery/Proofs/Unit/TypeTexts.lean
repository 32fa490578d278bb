/-
# Bindery.Proofs.Unit.TypeTexts -- the types of a unit read back from their texts.

The text of an arbitrary type may spell another type, or none.  A type that has been read is kept in
the words that spell it, so its text has these words again and is read as the same type.  Pointees
can be exchanged between pointers that have been read, because the words of a pointee spell a
pointer behind either keyword.  Nothing else happens to types on their way into a unit: what a
declaration binds, and what a call casts to, is a type of the catalog or a pointer of the catalog
with the pointee of another.
-/
import Bindery.Proofs.Catalog.Types
import Bindery.Proofs.Unit.Drafts
import Bindery.Proofs.Wrapper.CallTyping

namespace Bindery

/-! ## Types that read back -/

namespace ForeignType

variable {t : ForeignType}

/-- **`t.ReadsBack`** -- the text of the type is read as the type. -/
def ReadsBack (t : ForeignType) : Prop :=
  parse t.render = .ok t

/-- The text of a type has the words that spell the type. -/
theorem Grammar.words_render {tokens : List (List Char)} (h : Grammar tokens t)
    (hwords : ∀ token ∈ tokens, Text.IsToken token) :
    Text.words t.render.toList = tokens := by
  cases h with
  | @value first others hother =>
    show Text.words (joined (first :: others)).toList = first :: others
    rw [joined, String.toList_ofList, Text.words_intercalate hwords]
  | @pointer access others hothers =>
    rw [List.forall_mem_cons] at hwords
    -- the keyword ends at the space behind it
    have hrender : (ForeignType.pointer access (joined others)).render.toList = access.keyword ++
        ' ' :: [' '].intercalate others := by
      cases access <;> simp [render, joined, Access.keyword]
    rw [hrender, Text.words_append_blank (by decide), access.isToken_keyword.words_eq,
      Text.words_intercalate hwords.2]
    rfl

/-- **The types that read back are those that words spell.** -/
theorem readsBack_iff : t.ReadsBack ↔ ∃ tokens, (∀ token ∈ tokens, Text.IsToken token) ∧
    Grammar tokens t := by
  constructor
  · intro h
    exact ⟨_, fun _ htoken => Text.isToken_of_mem_words htoken, parse_eq_ok_iff.mp h⟩
  · rintro ⟨tokens, hwords, hgrammar⟩
    rw [ReadsBack, parse_eq_ok_iff, hgrammar.words_render hwords]
    exact hgrammar

/-- A type that is read reads back. -/
theorem readsBack_of_parse {s : String} (h : parse s = .ok t) : t.ReadsBack :=
  readsBack_iff.mpr ⟨_, fun _ htoken => Text.isToken_of_mem_words htoken, parse_eq_ok_iff.mp h⟩

/-- A pointer that reads back does so whatever its access. -/
theorem ReadsBack.with_access {access access' : Access} {pointee : String}
    (h : (pointer access pointee).ReadsBack) :
    (pointer access' pointee).ReadsBack := by
  obtain ⟨tokens, hwords, hgrammar⟩ := readsBack_iff.mp h
  cases hgrammar with
  | pointer _ hothers =>
    rw [List.forall_mem_cons] at hwords
    refine readsBack_iff.mpr ⟨_, ?_, .pointer access' hothers⟩
    exact List.forall_mem_cons.mpr ⟨access'.isToken_keyword, hwords.2⟩

/-- A pointer reads back with the pointee of any pointer that does. -/
theorem ReadsBack.withPointee? {source u : ForeignType} {pointee : String}
    (hsource : source.ReadsBack)
    (hpointee : source.pointee? = some pointee) (h : t.withPointee? pointee = some u) :
    u.ReadsBack := by
  obtain ⟨access, rfl⟩ := pointee?_eq_some_iff.mp hpointee
  cases t with
  | value text => cases h
  | pointer access' own =>
    cases h
    exact hsource.with_access

/-- **`t.Attainable`** -- the type is read off a text, or is made of attainable types by giving one
the pointee of another. -/
inductive Attainable : ForeignType → Prop
  | read {s : String} {t : ForeignType} : parse s = .ok t → Attainable t
  | repointed {t source u : ForeignType} {pointee : String} : Attainable t → Attainable source →
      source.pointee? = some pointee → t.withPointee? pointee = some u → Attainable u

theorem Attainable.readsBack (h : t.Attainable) : t.ReadsBack := by
  induction h with
  | read hparse => exact readsBack_of_parse hparse
  | repointed _ _ hpointee hwith _ hsource => exact hsource.withPointee? hpointee hwith

end ForeignType

/-! ## Derived types -/

/-- **`d.ReadsBack`** -- all types of the declaration read back. -/
structure Declaration.ReadsBack (d : Declaration) : Prop where
  params : ∀ p ∈ d.params, p.2.ReadsBack
  returns : ∀ t ∈ d.returns, t.ReadsBack

/-- **`x.CastsReadBack`** -- all types to which the wrapper casts read back. -/
def Wrapper.CastsReadBack (x : Wrapper) : Prop :=
  ∀ symbol arguments captured, .call symbol arguments captured ∈ x.body → ∀ a ∈ arguments,
    ∀ t ∈ a.cast, t.ReadsBack

/-- What is derived from types that read back shows types that read back. -/
theorem Wrapping.readsBack_of_derive {stem : String} {f : ForeignFunction} {w : Wrapping}
    {d : Declaration} {x : Wrapper}
    (h : w.derive stem f = .ok (d, x)) (harguments : ∀ a ∈ f.arguments, a.type.ReadsBack)
    (hreturns : ∀ t ∈ f.returns, t.ReadsBack) :
    d.ReadsBack ∧ x.CastsReadBack := by
  obtain ⟨table, s, htable, -, rfl, rfl⟩ := derive_eq_ok_iff.mp h
  have hbinding : ∀ r ∈ table.rows, r.binding.ReadsBack := fun r hr =>
    (table_fits htable).rows.binding_of_forall ForeignType.ReadsBack.with_access harguments hr
  refine ⟨⟨?_, hreturns⟩, ?_⟩
  · rw [ArgumentTable.declaration, List.forall_mem_map]
    exact hbinding
  · intro symbol arguments captured hcall a ha t ht
    obtain rfl := table.arguments_of_mem_body _ _ hcall
    obtain ⟨r, hr, rfl⟩ := List.mem_map.mp ha
    -- a cast is to the type that the declaration binds
    obtain rfl := ArgumentTable.callArgument_cast (Option.mem_def.mp ht)
    exact hbinding r hr

/-- **Types read back from their texts.** A type that is read off a text, or made of such types by
exchanging pointees, is what its text is read as.  So in every unit of an accepted catalog each
parameter type, each return type and each type of a cast is recovered from the text that shows it.
-/
theorem types_read_back :
    (∀ t : ForeignType, t.Attainable → ForeignType.parse t.render = .ok t) ∧
    ∀ (text : String) (c : FunctionCatalog) (o : Options) (v : Variant) (u : SourceUnit),
      FunctionCatalog.parse text = .ok c → c.assemble o v = .ok u →
      (∀ d ∈ u.declarations, (∀ p ∈ d.params, ForeignType.parse p.2.render = .ok p.2) ∧
        ∀ t ∈ d.returns, ForeignType.parse t.render = .ok t) ∧
      ∀ x ∈ u.wrappers, ∀ symbol arguments captured, .call symbol arguments captured ∈ x.body →
        ∀ a ∈ arguments, ∀ t ∈ a.cast, ForeignType.parse t.render = .ok t := by
  refine ⟨fun t ht => ht.readsBack, ?_⟩
  intro text c o v u hparse hunit
  have htaken := FunctionCatalog.assemble_taken hunit
  have hpairs : ∀ f w d x, (f, w) ∈ wrappingPairs (c.forBackend v.backend) →
    w.derive v.symbolStem f = .ok (d, x) →
      d.ReadsBack ∧ x.CastsReadBack := by
    intro f w d x hpair hderive
    have hf : f ∈ c.functions :=
      FunctionCatalog.mem_of_mem_forBackend (mem_wrappingPairs_iff.mp hpair).1
    obtain ⟨harguments, hreturns⟩ :=
      FunctionCatalog.forall_types (fun _ _ => ForeignType.readsBack_of_parse) hparse hf
    exact Wrapping.readsBack_of_derive hderive harguments hreturns
  constructor
  · intro d hd
    obtain ⟨⟨f, w⟩, hpair, x, hderive⟩ := htaken.declarations d hd
    have hdeclared := (hpairs f w d x hpair hderive).1
    exact ⟨hdeclared.params, hdeclared.returns⟩
  · intro x hx
    obtain ⟨⟨f, w⟩, hpair, d, -, hderive⟩ := htaken.pair_of_wrapper hx
    exact (hpairs f w d x hpair hderive).2

/-! ## A sample -/

/-- A function that seals into a buffer of its own, from which its second argument is read through a
cast.  The types are spelled with blanks of several kinds. -/
def sealText : String :=
  "[[[\"seal\",[[\"sig\",\" *mut  [u8;\\t64]\"],[\"c\",\"*const\\u00a0Seed\"]],null,null," ++
    "[\"\",\x7b\"c\":\"sig\"\x7d,[\"sig\"],null,\"explicit\"]]]]"

/-- The catalog of that function. -/
def sealCatalog : FunctionCatalog :=
  ⟨[⟨"seal", [⟨"sig", .pointer .exclusive "[u8; 64]"⟩, ⟨"c", .pointer .shared "Seed"⟩], none, none,
    [⟨"", ⟨[("c", "sig")]⟩, ["sig"], none, .asserted, none⟩]⟩]⟩

/-- The declaration of the function, whose second parameter has the pointee of the first. -/
def sealDeclaration : Declaration :=
  ⟨"PQCLEAN_DILITHIUM2_CLEAN_seal", [("sig", .pointer .exclusive "[u8; 64]"),
    ("c", .pointer .shared "[u8; 64]")], none⟩

/-- The arguments of its call, of which the second is cast. -/
def sealArguments : List CallArgument :=
  [⟨"sig", .uninit, none⟩, ⟨"sig", .uninit, some (.pointer .shared "[u8; 64]")⟩]

/-- The wrapper of the function. -/
def sealWrapper : Wrapper where
  signature := ⟨"seal", none, [], .outputs ["[u8; 64]"]⟩
  body :=
    [.allocate "sig" "[u8; 64]", .call "PQCLEAN_DILITHIUM2_CLEAN_seal" sealArguments false,
      .assumeInit "sig",
    .finish (.outputs ["sig"])]

/-- The unit of the function. -/
def sealUnit : SourceUnit :=
  ⟨sampleVariant, ["use super::*;", bufferImport], [sealDeclaration], [sealWrapper], none⟩

/-- The type that the sample binds and casts to stands nowhere in its catalog, and reads back all
the same. -/
theorem exchanged_pointee_reads_back :
    FunctionCatalog.parse sealText = .ok sealCatalog ∧ sealCatalog.assemble {} sampleVariant =
      .ok sealUnit ∧
      (ForeignType.pointer .shared "[u8; 64]").Attainable ∧
      ForeignType.parse (ForeignType.pointer .shared "[u8; 64]").render =
        .ok (.pointer .shared "[u8; 64]") ∧
      (∀ p ∈ sealDeclaration.params, ForeignType.parse p.2.render = .ok p.2) ∧
      ∀ a ∈ sealArguments, ∀ t ∈ a.cast, ForeignType.parse t.render = .ok t := by
  have hparse : FunctionCatalog.parse sealText = .ok sealCatalog := by decide +kernel
  have hunit : sealCatalog.assemble {} sampleVariant = .ok sealUnit := by decide +kernel
  have hseed : ForeignType.parse "*const Seed" = .ok (.pointer .shared "Seed") := by decide +kernel
  have hbytes : ForeignType.parse "*mut [u8; 64]" =
    .ok (.pointer .exclusive "[u8; 64]") := by decide +kernel
  have hattainable : (ForeignType.pointer .shared "[u8; 64]").Attainable :=
    .repointed (.read hseed) (.read hbytes) rfl rfl
  obtain ⟨htypes, hunits⟩ := types_read_back
  obtain ⟨hdeclared, hcast⟩ := hunits _ _ _ _ _ hparse hunit
  refine ⟨hparse, hunit, hattainable, htypes _ hattainable,
    (hdeclared sealDeclaration (by simp [sealUnit])).1, ?_⟩
  exact hcast sealWrapper (by simp [sealUnit]) "PQCLEAN_DILITHIUM2_CLEAN_seal" sealArguments false
    (by simp [sealWrapper])

end Bindery
