/-
# Bindery.Proofs.Unit.SelfTests -- when a unit tests itself, and what its test calls.

A self-test is planned over the declarations of a unit, which it looks up by symbol, while a catalog
lists functions.  The two correspond one to one: all wrappings of a function give one declaration,
and the symbols of two functions of a catalog differ since their names do and both follow the same
stem.  So a declaration is found exactly for the functions that the backend has, and whether there
is a test can be read off the catalog.
-/
import Bindery.Proofs.Unit.Calls

namespace Bindery

/-! ## Declarations of functions -/

section Declarations

variable {text : String} {c : FunctionCatalog} {o : Options} {v : Variant} {u : SourceUnit}

/-- Every function that the backend has is declared in the unit, whatever its wrappings are. -/
theorem FunctionCatalog.exists_declares (hparse : parse text = .ok c)
    (hunit : c.assemble o v = .ok u) {f : ForeignFunction}
    (hf : f ∈ c.forBackend v.backend) : ∃ d ∈ u.declarations, d.Declares v.symbolStem f :=
  (assemble_taken hunit).exists_declares (fun _ hw => mem_wrappingPairs_iff.mpr ⟨hf, hw⟩)
    (wrappings_ne_nil hparse (mem_of_mem_forBackend hf))

/-- **Under the symbol of a name the unit declares the function of that name**, if the backend has
one. -/
theorem FunctionCatalog.find?_declarations_eq_some_iff (hparse : parse text = .ok c)
    (hunit : c.assemble o v = .ok u)
    {name : String} {d : Declaration} :
    u.declarations.find? (fun d => d.symbol == v.symbolStem ++ name) = some d ↔
      ∃ f ∈ c.forBackend v.backend, f.name = name ∧ d.Declares v.symbolStem f := by
  have htaken := assemble_taken hunit
  have hwrappings : ∀ f ∈ c.forBackend v.backend, f.wrappings ≠ [] := fun f hf =>
    wrappings_ne_nil hparse (mem_of_mem_forBackend hf)
  constructor
  · intro hfind
    obtain ⟨hd, hsymbol⟩ := mem_of_find?_key_eq_some hfind
    obtain ⟨⟨f, w⟩, hpair, wrapper, hderive⟩ := htaken.declarations d hd
    obtain ⟨hf, -⟩ := mem_wrappingPairs_iff.mp hpair
    obtain ⟨d', hd', hdeclares⟩ := exists_declares hparse hunit hf
    -- what stands behind the stem of a symbol is the name of its function
    have hown : d.symbol = v.symbolStem ++ f.name := (Wrapping.derive_names hderive).1
    obtain rfl :=
      List.inj_on_of_nodup_map htaken.symbols hd' hd ((hdeclares.fields (hwrappings f hf)).1.trans
        hown.symm)
    exact ⟨f, hf, (String.append_right_inj _).mp (hown.symm.trans hsymbol), hdeclares⟩
  · rintro ⟨f, hf, rfl, hdeclares⟩
    obtain ⟨d', hd', hdeclares'⟩ := exists_declares hparse hunit hf
    obtain rfl := hdeclares'.unique hdeclares (hwrappings f hf)
    rw [← (hdeclares.fields (hwrappings f hf)).1]
    exact find?_key_eq_some htaken.symbols hd'

end Declarations

/-! ## Plans -/

namespace SelfTest

variable {stem function message : String} {declarations : List Declaration} {v : Variant}

/-- A call binds the parameters of the declaration that is found for its function. -/
theorem call?_eq_some_iff {call : TestCall} :
    call? stem declarations function = some call ↔
      ∃ d, declarations.find? (fun d => d.symbol == stem ++ function) = some d ∧ d.returns.isSome ∧
        (⟨function, d.symbol, d.params.map fun p => (p.1, .of p.1 p.2)⟩ : TestCall) = call := by
  unfold call?
  cases declarations.find? fun d => d.symbol == stem ++ function with
  | none => simp
  | some d => simp

/-- The functions that a self-test calls, in the order of the calls. -/
def functions : List String := [keypairFunction, signFunction, verifyFunction]

/-- The calls of a self-test in their order. -/
def calls (test : SelfTest) : List TestCall := [test.keypair, test.sign, test.verify]

/-- The calls of a plan are the calls of the three functions. -/
theorem calls_of_plan? {test : SelfTest} (h : plan? v declarations message = some test) :
    List.Forall₂ (fun name call => call? v.symbolStem declarations name = some call) functions
        test.calls := by
  simp only [plan?, Option.bind_eq_bind, Option.bind_eq_some_iff] at h
  obtain ⟨keypair, hkeypair, sign, hsign, verify, hverify, htest⟩ := h
  cases htest
  exact .cons hkeypair (.cons hsign (.cons hverify .nil))

/-- A plan calls the three functions in their order. -/
theorem map_function_calls {test : SelfTest} (h : plan? v declarations message = some test) :
    test.calls.map (·.function) = functions := by
  rw [← List.map_id functions]
  refine (map_eq_map_of_forall₂ (calls_of_plan? h) fun name call hcall => ?_).symm
  obtain ⟨d, -, -, rfl⟩ := call?_eq_some_iff.mp hcall
  rfl

/-- There is a plan if and only if each of the three functions can be called. -/
theorem isSome_plan?_iff :
    (plan? v declarations message).isSome ↔ ∀ name ∈ functions,
        (call? v.symbolStem declarations name).isSome := by
  simp only [plan?, functions, List.forall_mem_cons, List.not_mem_nil, false_implies,
    implies_true, and_true]
  cases call? v.symbolStem declarations keypairFunction with
  | none => simp
  | some keypair =>
    cases call? v.symbolStem declarations signFunction with
    | none => simp
    | some sign =>
      cases call? v.symbolStem declarations verifyFunction with
      | none => simp
      | some verify => simp

end SelfTest

/-! ## Units -/

namespace SelfTest

variable {text : String} {c : FunctionCatalog} {o : Options} {v : Variant} {u : SourceUnit}

/-- A unit has the self-test that is planned over its declarations, where the options ask for one.
-/
theorem mem_selfTest_iff (hunit : c.assemble o v = .ok u) {test : SelfTest} :
    test ∈ u.selfTest ↔ o.selfTest = true ∧ plan? v u.declarations o.message = some test := by
  unfold FunctionCatalog.assemble at hunit
  split at hunit
  · cases hunit
  · cases hunit
    simp [FunctionCatalog.finish]

/-- There is a self-test if the options ask for one and each of the three functions can be called.
-/
theorem isSome_selfTest_iff (hunit : c.assemble o v = .ok u) :
    u.selfTest.isSome ↔ o.selfTest = true ∧ ∀ name ∈ functions,
        (call? v.symbolStem u.declarations name).isSome := by
  have hplan : (plan? v u.declarations o.message).isSome ↔ _ := isSome_plan?_iff
  rw [← hplan]
  constructor
  · intro h
    obtain ⟨test, htest⟩ := Option.isSome_iff_exists.mp h
    obtain ⟨hasked, hplan⟩ := (mem_selfTest_iff hunit).mp htest
    exact ⟨hasked, Option.isSome_of_eq_some hplan⟩
  · rintro ⟨hasked, h⟩
    obtain ⟨test, hplan⟩ := Option.isSome_iff_exists.mp h
    exact Option.isSome_of_eq_some ((mem_selfTest_iff hunit).mpr ⟨hasked, hplan⟩)

/-- **What a call of a self-test is**: it goes to the one declaration of its symbol, which is that
of the function of its name, and passes something of the declared type for each of its parameters.
-/
theorem call?_assembled_iff (hparse : FunctionCatalog.parse text = .ok c)
    (hunit : c.assemble o v = .ok u) {name : String}
    {call : TestCall} :
    call? v.symbolStem u.declarations name = some call ↔
      ∃ f ∈ c.forBackend v.backend, ∃ d : Declaration, f.name = name ∧ d.Declares v.symbolStem f ∧
        f.returns.isSome ∧
        (⟨name, d.symbol, d.params.map fun p => (p.1, .of p.1 p.2)⟩ : TestCall) = call := by
  have hsame : ∀ f ∈ c.forBackend v.backend, ∀ d : Declaration, d.Declares v.symbolStem f →
      d.returns = f.returns := by
    intro f hf d hdeclares
    exact (hdeclares.fields (FunctionCatalog.wrappings_ne_nil hparse
      (FunctionCatalog.mem_of_mem_forBackend hf))).2
  simp only [call?_eq_some_iff, FunctionCatalog.find?_declarations_eq_some_iff hparse hunit]
  constructor
  · rintro ⟨d, ⟨f, hf, hname, hdeclares⟩, hreturns, hcall⟩
    exact ⟨f, hf, d, hname, hdeclares, hsame f hf d hdeclares ▸ hreturns, hcall⟩
  · rintro ⟨f, hf, d, hname, hdeclares, hreturns, hcall⟩
    exact ⟨d, ⟨f, hf, hname, hdeclares⟩, (hsame f hf d hdeclares).symm ▸ hreturns, hcall⟩

/-- A function can be called if and only if the backend has one of that name and it returns a value.
-/
theorem isSome_call?_iff (hparse : FunctionCatalog.parse text = .ok c)
    (hunit : c.assemble o v = .ok u) {name : String} :
    (call? v.symbolStem u.declarations name).isSome ↔
      ∃ f ∈ c.functions, f.name = name ∧ f.appliesTo v.backend ∧ f.returns.isSome := by
  simp only [Option.isSome_iff_exists, call?_assembled_iff hparse hunit, FunctionCatalog.forBackend,
    List.mem_filter]
  constructor
  · rintro ⟨call, f, ⟨hf, happlies⟩, d, hname, -, hreturns, -⟩
    exact ⟨f, hf, hname, happlies, hreturns⟩
  · rintro ⟨f, hf, hname, happlies, hreturns⟩
    have hmem : f ∈ c.forBackend v.backend := List.mem_filter.mpr ⟨hf, happlies⟩
    obtain ⟨d, -, hdeclares⟩ := FunctionCatalog.exists_declares hparse hunit hmem
    exact ⟨_, f, ⟨hf, happlies⟩, d, hname, hdeclares, hreturns, rfl⟩

/-- A call of a self-test binds the parameters of the declaration that its function has. -/
theorem exists_binds_of_call? (hparse : FunctionCatalog.parse text = .ok c)
    (hunit : c.assemble o v = .ok u) {name : String}
    {call : TestCall} (h : call? v.symbolStem u.declarations name = some call) :
    ∃ f ∈ c.functions, ∃ d : Declaration, f.name = call.function ∧ f.appliesTo v.backend ∧
      d.Declares v.symbolStem f ∧
      call.symbol = v.symbolStem ++ f.name ∧ u.declarations.filter (·.symbol == call.symbol) = [d] ∧
      call.arguments.map (fun a => (a.1, a.2.type)) = d.params := by
  obtain ⟨f, hf, d, rfl, hdeclares, -, rfl⟩ := (call?_assembled_iff hparse hunit).mp h
  obtain ⟨hmem, happlies⟩ := List.mem_filter.mp hf
  have hfind :=
    (FunctionCatalog.find?_declarations_eq_some_iff hparse hunit).mpr ⟨f, hf, rfl, hdeclares⟩
  obtain ⟨hd, hsymbol⟩ := mem_of_find?_key_eq_some hfind
  have hone : u.declarations.filter (·.symbol == d.symbol) = [d] :=
    filter_key_eq_singleton (FunctionCatalog.assemble_taken hunit).symbols hd
  refine ⟨f, hmem, d, rfl, happlies, hdeclares, hsymbol, hone, ?_⟩
  rw [List.map_map]
  exact (List.map_congr_left fun p _ => by simp).trans (List.map_id _)

end SelfTest

/-- **A unit tests itself exactly if the options ask for it and the catalog supports it**: its
backend has the three functions, and each of them returns a value.  Each call of the test then goes
to the one declaration of its symbol, which all wrappings of the function share, and binds all
parameters of that declaration in their order and under their types. -/
theorem unit_tests_itself_iff {text : String} {c : FunctionCatalog}
    (hparse : FunctionCatalog.parse text = .ok c) {o : Options}
    {v : Variant} {u : SourceUnit} (hunit : c.assemble o v = .ok u) :
    (u.selfTest.isSome ↔
      o.selfTest = true ∧ ∀ name ∈ ["crypto_sign_keypair", "crypto_sign_signature",
        "crypto_sign_verify"],
        ∃ f ∈ c.functions, f.name = name ∧ f.appliesTo v.backend ∧ f.returns.isSome) ∧
    ∀ test ∈ u.selfTest,
      test.calls.map (·.function) = ["crypto_sign_keypair", "crypto_sign_signature",
        "crypto_sign_verify"] ∧
      ∀ call ∈ test.calls, ∃ f ∈ c.functions, ∃ d : Declaration, f.name = call.function ∧
        f.appliesTo v.backend ∧
        d.Declares v.symbolStem f ∧ call.symbol = v.symbolStem ++ f.name ∧
        u.declarations.filter (·.symbol == call.symbol) = [d] ∧
        call.arguments.map (fun a => (a.1, a.2.type)) = d.params := by
  refine ⟨?_, fun test htest => ?_⟩
  · simp only [SelfTest.isSome_selfTest_iff hunit, SelfTest.isSome_call?_iff hparse hunit]
    rfl
  · obtain ⟨-, hplan⟩ := (SelfTest.mem_selfTest_iff hunit).mp htest
    refine ⟨SelfTest.map_function_calls hplan, fun call hcall => ?_⟩
    obtain ⟨name, -, h⟩ := exists_left_of_forall₂ (SelfTest.calls_of_plan? hplan) hcall
    exact SelfTest.exists_binds_of_call? hparse hunit h

/-! ## A sample -/

/-- A catalog of the three functions.  Signing has two wrappings, in both of which the message
stands in the buffer of the signature, and one backend alone generates keys. -/
def signatureText : String :=
  "[[[\"crypto_sign_verify\",[],\"int\"]," ++
    "[\"crypto_sign_signature\",[[\"sig\",\"*mut u8\"],[\"m\",\"*const Msg\"]]," ++
    "\"int\",null,null," ++
    "[[\"\",\x7b\"m\":\"sig\"\x7d,[\"sig\"],\"0 is Ok\",\"explicit\"]," ++
    "[\"_raw\",\x7b\"m\":\"sig\"\x7d,[\"sig\"],\"0 is Ok\",\"explicit\"]]]," ++
    "[\"crypto_sign_keypair\",[],\"int\",[\"clean\"]]]]"

/-- A wrapping of the sample that signs in place. -/
def signatureWrapping (suffix : String) : Wrapping :=
  ⟨suffix, ⟨[("m", "sig")]⟩, ["sig"], some .zeroIsOk, .asserted, none⟩

/-- The catalog that the text of the sample holds. -/
def signatureCatalog : FunctionCatalog :=
  let plain : Wrapping := ⟨"", ⟨[]⟩, [], none, .identical, none⟩
  ⟨[⟨"crypto_sign_verify", [], some (.value "int"), none, [plain]⟩,
    ⟨"crypto_sign_signature", [⟨"sig", .pointer .exclusive "u8"⟩, ⟨"m", .pointer .shared "Msg"⟩],
      some (.value "int"), none,
      [signatureWrapping "", signatureWrapping "_raw"]⟩,
    ⟨"crypto_sign_keypair", [], some (.value "int"), some [.clean], [plain]⟩]⟩

/-- The unit of a variant for the catalog of the sample. -/
def signatureUnit (v : Variant) : SourceUnit :=
  FunctionCatalog.finish v {} (signatureCatalog.draft v).1

/-- The unit of the backend that generates keys tests itself, and the unit of the other one does
not.  In the call that signs, the message has the type of the signature's buffer, as in the
declaration, and not that of the catalog. -/
theorem signature_unit_tests_itself :
    FunctionCatalog.parse signatureText = .ok signatureCatalog ∧
      signatureCatalog.assemble {} sampleVariant = .ok (signatureUnit sampleVariant) ∧
      signatureCatalog.assemble {} { sampleVariant with backend := .avx2 } =
        .ok (signatureUnit { sampleVariant with backend := .avx2 }) ∧
      (signatureUnit sampleVariant).selfTest.isSome ∧
      ¬ (signatureUnit { sampleVariant with backend := .avx2 }).selfTest.isSome ∧
      ∀ test ∈ (signatureUnit sampleVariant).selfTest, ∃ d : Declaration,
        (signatureUnit sampleVariant).declarations.filter (·.symbol == test.sign.symbol) = [d] ∧
          test.sign.arguments.map (fun a => (a.1, a.2.type)) = d.params ∧
          d.params = [("sig", .pointer .exclusive "u8"), ("m", .pointer .shared "u8")] := by
  have hparse : FunctionCatalog.parse signatureText = .ok signatureCatalog := by decide +kernel
  have hclean : signatureCatalog.assemble {} sampleVariant =
    .ok (signatureUnit sampleVariant) := by decide +kernel
  have havx2 : signatureCatalog.assemble {} { sampleVariant with backend := .avx2 } =
      .ok (signatureUnit { sampleVariant with backend := .avx2 }) := by decide +kernel
  obtain ⟨htests, hcalls⟩ := unit_tests_itself_iff hparse hclean
  refine ⟨hparse, hclean, havx2, htests.mpr ⟨rfl, by decide⟩, ?_, fun test htest => ?_⟩
  · intro h
    exact absurd (((unit_tests_itself_iff hparse havx2).1.mp h).2 _ List.mem_cons_self) (by decide)
  · obtain ⟨-, hbinds⟩ := hcalls test htest
    obtain ⟨f, -, d, -, -, -, -, hdeclared, hparams⟩ := hbinds test.sign (by simp [SelfTest.calls])
    have htypes : ∀ test ∈ (signatureUnit sampleVariant).selfTest,
      test.sign.arguments.map (fun a => (a.1, a.2.type)) =
        [("sig", .pointer .exclusive "u8"), ("m", .pointer .shared "u8")] := by decide +kernel
    exact ⟨d, hdeclared, hparams, hparams.symm.trans (htypes test htest)⟩

end Bindery
