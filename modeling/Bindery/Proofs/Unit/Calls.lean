/-
# Bindery.Proofs.Unit.Calls -- the calls of a unit fit its declarations.

All wrappings of a function share one declaration, which is made from the table of the first of
them, while every wrapper calls with the arguments of its own table.  The calls fit all the same: a
later pair is taken up only if its own declaration is the one that is there, so the table behind a
wrapper's call and the table behind the declaration bind every argument alike.
-/
import Bindery.Catalog.Document
import Bindery.Proofs.Catalog.Accepted
import Bindery.Proofs.Unit.Drafts
import Bindery.Proofs.Wrapper.CallTyping
import Bindery.Proofs.Wrapper.Signature

namespace Bindery

/-! ## Pairs -/

/-- What a pair gives on its own fits together: the body calls once, and the call fits the
declaration. -/
theorem Wrapping.derive_wellTyped {f : ForeignFunction} {w : Wrapping} {stem : String}
    {d : Declaration} {wrapper : Wrapper}
    (hnodup : (f.arguments.map (·.name)).Nodup) (h : w.derive stem f = .ok (d, wrapper)) :
    ∃ arguments captured, wrapper.body.filter Statement.isCall =
      [.call d.symbol arguments captured] ∧
      List.Forall₂ (CallArgument.WellTyped wrapper.signature.params
        (wrapper.body.filterMap Statement.buffer?)) arguments
        (d.params.map (·.2)) := by
  obtain ⟨t, s, htable, hsignature, rfl, rfl⟩ := derive_eq_ok_iff.mp h
  obtain ⟨-, hparams, -⟩ := ArgumentTable.signature_eq_ok hsignature
  refine ⟨t.rows.map t.callArgument, ArgumentTable.captures s.returns, ?_, ?_⟩
  · exact t.body_calls (stem ++ f.name) s.returns
  · rw [t.body_buffers, hparams]
    exact (table_fits htable).call_wellTyped hnodup stem

/-! ## Units -/

/-- **Every call of a unit is well typed** against the one declaration of the unit that has its
symbol, and there is one call in every wrapper. -/
theorem assembled_calls_wellTyped {text : String} {c : FunctionCatalog}
    (hparse : FunctionCatalog.parse text = .ok c)
    {o : Options} {v : Variant} {u : SourceUnit} (hunit : c.assemble o v = .ok u)
    {wrapper : Wrapper}
    (hwrapper : wrapper ∈ u.wrappers) :
    ∃ symbol arguments captured declaration, wrapper.body.filter Statement.isCall =
      [.call symbol arguments captured] ∧
      u.declarations.filter (·.symbol == symbol) = [declaration] ∧ arguments.length =
        declaration.params.length ∧
      List.Forall₂ (CallArgument.WellTyped wrapper.signature.params
        (wrapper.body.filterMap Statement.buffer?)) arguments
        (declaration.params.map (·.2)) := by
  have htaken := FunctionCatalog.assemble_taken hunit
  obtain ⟨⟨f, w⟩, hpair, d, hd, hderive⟩ := htaken.pair_of_wrapper hwrapper
  have hf : f ∈ c.functions :=
    FunctionCatalog.mem_of_mem_forBackend (mem_wrappingPairs_iff.mp hpair).1
  obtain ⟨arguments, captured, hcall, htyped⟩ :=
    Wrapping.derive_wellTyped (FunctionCatalog.nodup_arguments hparse hf) hderive
  refine ⟨d.symbol, arguments, captured, d, hcall, ?_, ?_, htyped⟩
  · exact filter_key_eq_singleton htaken.symbols hd
  · rw [htyped.length_eq, List.length_map]

/-- The wrapper that opens in place. -/
def sampleWrapper : Wrapper where
  signature :=
    ⟨"open_at", none, [("m", .reference .exclusive "Buf"), ("k", .value "Key")],
      .result ["u8"] .zeroIsOk⟩
  body := [.allocate "n" "u8",
    .call "PQCLEAN_DILITHIUM2_CLEAN_open"
      [⟨"m", .borrow .exclusive, none⟩, ⟨"n", .uninit, none⟩, ⟨"m", .borrow .shared, none⟩,
        ⟨"k", .value, none⟩] true,
    .failUnlessZero, .assumeInit "n", .finish (.success ["n"])]

/-- The wrapper that opens in place calls what the wrapper into a buffer of its own has declared. -/
theorem sample_call_wellTyped :
    FunctionCatalog.parse sampleText = .ok sampleCatalog ∧ sampleCatalog.assemble {} sampleVariant =
      .ok sampleUnit ∧
      sampleWrapper ∈ sampleUnit.wrappers ∧
      ∃ symbol arguments captured declaration,
        sampleWrapper.body.filter Statement.isCall = [.call symbol arguments captured] ∧
        sampleUnit.declarations.filter (·.symbol == symbol) = [declaration] ∧
        arguments.length = declaration.params.length ∧
        List.Forall₂ (CallArgument.WellTyped sampleWrapper.signature.params [("n", "u8")]) arguments
          (declaration.params.map (·.2)) := by
  have hunit : sampleCatalog.assemble {} sampleVariant = .ok sampleUnit := by decide +kernel
  have hwrapper : sampleWrapper ∈ sampleUnit.wrappers := by decide +kernel
  exact ⟨parse_sampleText, hunit, hwrapper, assembled_calls_wellTyped parse_sampleText
    hunit hwrapper⟩

end Bindery
