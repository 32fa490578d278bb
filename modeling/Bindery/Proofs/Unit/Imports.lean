/-
# Bindery.Proofs.Unit.Imports -- the import that buffers need.

A unit decides about the import by looking at the statements of its wrappers, after all pairs have
been selected and derived.  What it finds there is what the catalog lists: a body declares one
buffer for every output of its wrapping, so some wrapper declares one exactly if some function of
the variant's backend has a wrapping with outputs.  The lines say the same.  Without outputs nothing
in a wrapper is spelled like the declaration of a buffer, whatever its names, types and description
are.
-/
import Bindery.Proofs.Source.ResultName
import Bindery.Proofs.Unit.Order
import Bindery.Proofs.Wrapper.CallTyping
import Bindery.Source.Wrapper

namespace Bindery

open Source

/-! ## Statements -/

/-- A statement declares a buffer when it has one. -/
theorem Statement.isAllocation_eq (s : Statement) : s.isAllocation = s.buffer?.isSome := by
  cases s <;> rfl

/-- A wrapper declares buffers when some statement has one. -/
theorem Wrapper.allocates_iff {wrapper : Wrapper} :
    wrapper.allocates = true ↔ wrapper.body.filterMap Statement.buffer? ≠ [] := by
  simp only [allocates, List.any_eq_true, Statement.isAllocation_eq, ne_eq,
    List.filterMap_eq_nil_iff, not_forall, Option.isSome_iff_ne_none, exists_prop]

section Pairs

variable {f : ForeignFunction} {w : Wrapping} {stem : String} {d : Declaration} {wrapper : Wrapper}

/-- The wrapper of a pair has a buffer for every output, in the order in which they are listed. -/
theorem Wrapping.buffers_of_derive (hnodup : (f.arguments.map (·.name)).Nodup)
    (h : w.derive stem f = .ok (d, wrapper)) :
    (wrapper.body.filterMap Statement.buffer?).map (·.1) = w.outputs := by
  obtain ⟨t, s, htable, -, -, rfl⟩ := derive_eq_ok_iff.mp h
  rw [t.body_buffers]
  exact (table_fits htable).buffers_names hnodup

/-- The wrapper of a pair declares buffers exactly if the wrapping lists an output. -/
theorem Wrapping.allocates_of_derive (hnodup : (f.arguments.map (·.name)).Nodup)
    (h : w.derive stem f = .ok (d, wrapper)) :
    wrapper.allocates = true ↔ w.outputs ≠ [] := by
  rw [Wrapper.allocates_iff, ← buffers_of_derive hnodup h, ne_eq, ne_eq, List.map_eq_nil_iff]

/-! ## Lines -/

/-- The line that declares a buffer. -/
def Source.allocationLine (name type : String) : String :=
  "    let mut " ++ name ++ " = MaybeUninit::<" ++ type ++ ">::uninit();"

/-- A declaration of a buffer is spelled by its line. -/
theorem Statement.lines_allocate (result name type : String) :
    (Statement.allocate name type).lines result = [allocationLine name type] := by
  rw [lines, List.singleton_inj, ← String.toList_inj]
  simp [allocationLine, line, indent]

/-- How a line that declares a buffer starts and ends. -/
theorem Source.exists_allocationLine_eq (name type : String) :
    ∃ rest, (allocationLine name type).toList = "    let mut ".toList ++ rest ++ [';'] :=
  ⟨name.toList ++
    (" = MaybeUninit::<".toList ++ (type.toList ++ ">::uninit()".toList)), by simp [allocationLine]⟩

section Spelling

variable {name type text : String}

/-- A line without a margin declares no buffer. -/
theorem Source.allocationLine_ne_of_head? (h : text.toList.head? ≠ some ' ') :
    allocationLine name type ≠ text := by
  rintro rfl
  obtain ⟨rest, hline⟩ := exists_allocationLine_eq name type
  rw [hline] at h
  exact h rfl

/-- A line that ends otherwise declares no buffer. -/
theorem Source.allocationLine_ne_of_getLast? (h : text.toList.getLast? ≠ some ';') :
    allocationLine name type ≠ text := by
  rintro rfl
  obtain ⟨rest, hline⟩ := exists_allocationLine_eq name type
  rw [hline, List.getLast?_concat] at h
  exact h rfl

/-- Behind the margin of the first level, the line of a buffer says something that starts with
`let mut`. -/
theorem Source.exists_of_allocationLine_eq_line {deeper : Nat}
    (h : allocationLine name type = line (deeper + 1) text) :
    ∃ rest, "let mut ".toList ++ rest = List.replicate (4 * deeper) ' ' ++ text.toList := by
  obtain ⟨rest, hline⟩ := exists_allocationLine_eq name type
  replace h := congrArg String.toList h
  have hmargin : (line (deeper + 1) text).toList = "    ".toList ++
      (List.replicate (4 * deeper) ' ' ++ text.toList) := by
    simp [line, indent, Nat.mul_succ, Nat.add_comm (4 * deeper) 4, List.replicate_add]
  have hspelled : "    let mut ".toList = "    ".toList ++ "let mut ".toList := by decide
  rw [hline, hmargin, hspelled, List.append_assoc, List.append_assoc,
    List.append_cancel_left_eq] at h
  exact ⟨_, h⟩

/-- A line of the first level declares a buffer only if it starts so. -/
theorem Source.allocationLine_ne_line (h : ¬ "let mut ".toList <+: text.toList) :
    allocationLine name type ≠ line 1 text := by
  intro hsame
  obtain ⟨rest, hrest⟩ := exists_of_allocationLine_eq_line hsame
  exact h ⟨rest, hrest⟩

/-- A line of a deeper level declares no buffer. -/
theorem Source.allocationLine_ne_line_of_deeper (deeper : Nat) :
    allocationLine name type ≠ line (deeper + 2) text := by
  intro hsame
  obtain ⟨rest, hrest⟩ := exists_of_allocationLine_eq_line hsame
  simp [Nat.mul_succ, List.replicate_succ] at hrest

/-- Documentation declares no buffer. -/
theorem Source.allocationLine_notMem_docs {wrapper : Wrapper} :
    allocationLine name type ∉ wrapper.docs := by
  intro hmem
  rw [Wrapper.docs] at hmem
  split at hmem
  · obtain ⟨content, -, hdoc⟩ := List.mem_map.mp hmem
    refine allocationLine_ne_of_head? ?_ hdoc.symm
    rw [docLine]
    split <;> simp
  · cases hmem

/-- A signature declares no buffer: a parameter on a line of its own has a comma after it. -/
theorem Source.allocationLine_notMem_signature (s : Signature) :
    allocationLine name type ∉ s.listing.lines := by
  intro hmem
  rw [Listing.lines] at hmem
  split at hmem
  · exact allocationLine_ne_of_head?
      (by simp [Signature.listing, Listing.oneLine, Listing.inner, line, indent])
      (List.mem_singleton.mp hmem)
  · simp only [Signature.listing, Listing.stacked, Listing.stackedAt, List.mem_append,
      List.mem_singleton, List.mem_map] at hmem
    rcases hmem with (hopening | ⟨item, -, hitem⟩) | hclosing
    · exact allocationLine_ne_of_head? (by simp [line, indent]) hopening
    · exact allocationLine_ne_of_getLast? (by simp [line]) hitem.symm
    · exact allocationLine_ne_of_head? (by simp [line, indent]) hclosing

/-- A call declares no buffer if what binds its value does not start so. -/
theorem Source.allocationLine_notMem_callListing {front symbol : String} {operands : List String}
    (h : ∀ rest, ¬ "let mut ".toList <+: front.toList ++ ("unsafe \x7b".toList ++ rest)) :
    allocationLine name type ∉ (callListing 1 front symbol operands).lines := by
  intro hmem
  rw [Listing.lines] at hmem
  split at hmem
  · rw [List.mem_singleton, Listing.oneLine] at hmem
    refine allocationLine_ne_line ?_ hmem
    simp only [callListing, String.toList_append, List.append_assoc]
    exact h _
  · simp only [callListing, Listing.stacked, Listing.stackedAt, List.mem_append, List.mem_singleton,
      List.mem_map] at hmem
    rcases hmem with (hopening | (hcallee | ⟨item, -, hitem⟩) | hclosing) | hend
    · refine allocationLine_ne_line ?_ hopening
      rw [String.toList_append, ← List.append_nil "unsafe \x7b".toList]
      exact h []
    · exact allocationLine_ne_line_of_deeper 0 hcallee
    · exact allocationLine_ne_line_of_deeper 1 hitem.symm
    · exact allocationLine_ne_line_of_deeper 0 hclosing
    · exact allocationLine_ne_line (by decide) hend

/-- The call of a wrapper declares no buffer: the name that it binds starts otherwise. -/
theorem Source.allocationLine_notMem_call {symbol : String} {arguments : List CallArgument}
    {captured : Bool} (count : Nat) :
    allocationLine name type ∉ (Statement.call symbol arguments captured).lines
        (resultName count) := by
  apply allocationLine_notMem_callListing
  intro rest
  cases captured <;> simp [binding, resultName]

/-- What follows a call declares no buffer where there are no outputs. -/
theorem Source.allocationLine_notMem_after (returns : ReturnShape) (count : Nat) :
    allocationLine name type ∉
      (ArgumentTable.checks returns ++ ArgumentTable.endings [] returns).flatMap
          (Statement.lines (resultName count)) := by
  have hresult : ¬ "let mut ".toList <+: (resultName count).toList := by simp [resultName]
  cases returns with
  | unit => exact List.not_mem_nil
  | raw type =>
    intro hmem
    exact allocationLine_ne_line hresult (List.mem_singleton.mp hmem)
  | outputs types =>
    intro hmem
    exact allocationLine_ne_line (by decide) (List.mem_singleton.mp hmem)
  | result types convention =>
    cases convention
    intro hmem
    have hlines : allocationLine name type ∈ [line 1 ("if " ++ resultName count ++ " != 0 \x7b"),
      line 2 "return Err(());",
        line 1 "\x7d", line 1 ("Ok(" ++ tuple [] ++ ")")] := hmem
    simp only [List.mem_cons, List.not_mem_nil, or_false] at hlines
    rcases hlines with hcheck | hfail | hend | hsuccess
    · exact allocationLine_ne_line (by simp) hcheck
    · exact allocationLine_ne_line_of_deeper 0 hfail
    · exact allocationLine_ne_line (by decide) hend
    · exact allocationLine_ne_line (by decide) hsuccess

end Spelling

/-- The wrapper of a pair has a line that declares a buffer only if the wrapping lists an output. -/
theorem Wrapping.outputs_of_allocationLine (hnodup : (f.arguments.map (·.name)).Nodup)
    (h : w.derive stem f = .ok (d, wrapper))
    {name type : String} (hline : allocationLine name type ∈ wrapper.lines) : w.outputs ≠ [] := by
  intro hnone
  obtain ⟨t, s, htable, -, -, rfl⟩ := derive_eq_ok_iff.mp h
  have hbuffers : t.buffers = [] := by
    rw [← List.map_eq_nil_iff, (table_fits htable).buffers_names hnodup, hnone]
  -- without outputs the body is the call and what deals with its raw value
  rw [Wrapper.lines, Wrapper.code, t.body_eq, (table_fits htable).outputs_names hnodup, hbuffers,
    hnone] at hline
  simp only [List.map_nil, List.nil_append, List.append_nil, List.flatMap_cons, List.mem_append,
    List.mem_singleton] at hline
  rcases hline with hdocs | (hsignature | hcall | hafter) | hclose
  · exact allocationLine_notMem_docs hdocs
  · exact allocationLine_notMem_signature s hsignature
  · exact allocationLine_notMem_call _ hcall
  · exact allocationLine_notMem_after _ _ hafter
  · exact allocationLine_ne_of_head? (by decide) hclose

end Pairs

/-! ## Units -/

namespace FunctionCatalog

variable {text : String} {c : FunctionCatalog} {o : Options} {v : Variant} {u : SourceUnit}

/-- **`c.ListsOutput v`** -- some wrapping of a function that the variant's backend has lists an
output. -/
def ListsOutput (c : FunctionCatalog) (v : Variant) : Prop :=
  ∃ f ∈ c.functions, (∀ backends ∈ f.backends, v.backend ∈ backends) ∧ ∃ w ∈ f.wrappings,
    w.outputs ≠ []

instance : Decidable (c.ListsOutput v) :=
  inferInstanceAs (Decidable (∃ f ∈ c.functions, (∀ backends ∈ f.backends, v.backend ∈ backends) ∧
    ∃ w ∈ f.wrappings, w.outputs ≠ []))

/-- The functions of a backend, by what they say about backends. -/
theorem mem_forBackend_iff {f : ForeignFunction} {backend : Backend} :
    f ∈ c.forBackend backend ↔ f ∈ c.functions ∧ ∀ backends ∈ f.backends, backend ∈ backends := by
  rw [forBackend_eq, List.mem_filter]
  cases f.backends <;> simp

/-- Some wrapper of a unit declares buffers exactly if the catalog lists an output for it. -/
theorem allocates_iff_listsOutput (hparse : parse text = .ok c) (h : c.assemble o v = .ok u) :
    u.wrappers.any Wrapper.allocates = true ↔ c.ListsOutput v := by
  have htaken := assemble_taken h
  have hnodup : ∀ {f : ForeignFunction}, f ∈ c.forBackend v.backend →
      (f.arguments.map (·.name)).Nodup := fun hf =>
    nodup_arguments hparse (mem_of_mem_forBackend hf)
  rw [List.any_eq_true]
  constructor
  · rintro ⟨wrapper, hwrapper, hallocates⟩
    obtain ⟨⟨f, w⟩, hpair, d, -, hderive⟩ := htaken.pair_of_wrapper hwrapper
    obtain ⟨hf, hw⟩ := mem_wrappingPairs_iff.mp hpair
    obtain ⟨hmem, hbackends⟩ := mem_forBackend_iff.mp hf
    exact ⟨f, hmem, hbackends, w, hw,
      (Wrapping.allocates_of_derive (hnodup hf) hderive).mp hallocates⟩
  · rintro ⟨f, hmem, hbackends, w, hw, houtputs⟩
    have hf := mem_forBackend_iff.mpr ⟨hmem, hbackends⟩
    obtain ⟨wrapper, hwrapper, d, -, hderive⟩ :=
      exists_right_of_forall₂ htaken.wrappers (mem_wrappingPairs_iff.mpr ⟨hf, hw⟩)
    exact ⟨wrapper, hwrapper, (Wrapping.allocates_of_derive (hnodup hf) hderive).mpr houtputs⟩

/-- A unit one of whose wrappers has a line that declares a buffer has its import. -/
theorem import_of_allocationLine (hparse : parse text = .ok c) (h : c.assemble o v = .ok u)
    {wrapper : Wrapper}
    (hwrapper : wrapper ∈ u.wrappers) {name type : String}
    (hline : allocationLine name type ∈ wrapper.lines) :
    bufferImport ∈ u.uses := by
  obtain ⟨⟨f, w⟩, hpair, d, -, hderive⟩ := (assemble_taken h).pair_of_wrapper hwrapper
  have hnodup := nodup_arguments hparse (mem_of_mem_forBackend (mem_wrappingPairs_iff.mp hpair).1)
  have hallocates : u.wrappers.any Wrapper.allocates = true :=
    List.any_eq_true.mpr ⟨wrapper, hwrapper,
      (Wrapping.allocates_of_derive hnodup hderive).mpr
        (Wrapping.outputs_of_allocationLine hnodup hderive hline)⟩
  rw [uses_eq h, hallocates]
  cases hlisted : o.uses.contains bufferImport with
  | true => exact List.contains_iff_mem.mp hlisted
  | false => exact List.mem_append_right _ List.mem_cons_self

end FunctionCatalog

/-- **The import that buffers need is there exactly when it is needed.** The imports of the options
stand first, unchanged.  Nothing is added if no wrapping of a function that the variant's backend
has lists an output, or if the import is among them already; and in all other cases that one line
is.  So a unit has the import wherever a line of a wrapper declares a buffer. -/
theorem buffer_import_exactly_when_needed {text : String} {c : FunctionCatalog}
    (hparse : FunctionCatalog.parse text = .ok c)
    {o : Options} {v : Variant} {u : SourceUnit} (hunit : c.assemble o v = .ok u) :
    o.uses <+: u.uses ∧
      (¬ c.ListsOutput v ∨ "use core::mem::MaybeUninit;" ∈ o.uses → u.uses = o.uses) ∧
      (c.ListsOutput v ∧ "use core::mem::MaybeUninit;" ∉ o.uses →
        u.uses = o.uses ++ ["use core::mem::MaybeUninit;"]) ∧
      (∀ wrapper ∈ u.wrappers, ∀ name type, .allocate name type ∈ wrapper.body →
        allocationLine name type ∈ wrapper.lines) ∧
      ∀ wrapper ∈ u.wrappers, ∀ name type, allocationLine name type ∈ wrapper.lines →
          "use core::mem::MaybeUninit;" ∈ u.uses := by
  have huses := FunctionCatalog.uses_eq hunit
  have hallocates := FunctionCatalog.allocates_iff_listsOutput hparse hunit
  refine ⟨?_, ?_, ?_, ?_, ?_⟩
  · rw [huses]
    split
    · exact List.prefix_append _ _
    · exact List.prefix_rfl
  · rintro (hnone | hlisted)
    · rw [← hallocates, Bool.not_eq_true] at hnone
      rw [huses, hnone]
      rfl
    · have hcontains : o.uses.contains bufferImport = true := List.contains_iff_mem.mpr hlisted
      rw [huses, hcontains, Bool.not_true, Bool.and_false]
      rfl
  · rintro ⟨hneeded, hmissing⟩
    have hcontains : o.uses.contains bufferImport = false := by
      rw [← Bool.not_eq_true, List.contains_iff_mem]
      exact hmissing
    rw [huses, hallocates.mpr hneeded, hcontains]
    rfl
  · intro wrapper _ name type hmem
    have hline : allocationLine name type ∈ (Statement.allocate name type).lines
        wrapper.resultName := by
      rw [Statement.lines_allocate]
      exact List.mem_cons_self
    exact Wrapper.mem_lines_of_mem_body hmem hline
  · intro wrapper hwrapper name type hline
    exact FunctionCatalog.import_of_allocationLine hparse hunit hwrapper hline

/-- The sample opens into buffers, so its unit has the import behind that of the options, and no
second one if the options have it. -/
theorem sample_buffer_import :
    FunctionCatalog.parse sampleText = .ok sampleCatalog ∧ sampleCatalog.assemble {} sampleVariant =
      .ok sampleUnit ∧
      sampleUnit.uses = ["use super::*;", "use core::mem::MaybeUninit;"] ∧
      ∀ u, sampleCatalog.assemble ⟨[], ["use core::mem::MaybeUninit;", "use super::*;"], false, ""⟩
        sampleVariant = .ok u →
        u.uses = ["use core::mem::MaybeUninit;", "use super::*;"] := by
  have hunit : sampleCatalog.assemble {} sampleVariant = .ok sampleUnit := by decide +kernel
  have hlists : sampleCatalog.ListsOutput sampleVariant := by decide +kernel
  refine ⟨parse_sampleText, hunit, ?_, ?_⟩
  · exact (buffer_import_exactly_when_needed parse_sampleText hunit).2.2.1 ⟨hlists, by decide⟩
  · intro u hu
    exact (buffer_import_exactly_when_needed parse_sampleText hu).2.1 (Or.inr List.mem_cons_self)

end Bindery
