/-
# Bindery.Proofs.Source.Descriptions -- a description becomes documentation and nothing else.

A description is any text that a catalog gives for a wrapping.  It is carried along to the signature
of the wrapper and is read when the wrapper is written, so a catalog without descriptions gives the
same units, or the same error, but for the descriptions.  There each of its lines becomes one line
behind the mark of a documentation comment.  A line of a text holds no line feed, so the joined
lines of a unit are cut again where they were joined, and no cut puts a piece of a description in
front of its mark.
-/
import Bindery.Proofs.Source.Layouts
import Bindery.Proofs.Unit.Drafts
import Bindery.Source.Unit

namespace Bindery

open Source

/-! ## Descriptions -/

/-- The wrapping with another description. -/
def Wrapping.describe (w : Wrapping) (description : Option String) : Wrapping :=
  { w with description := description }

/-- The wrapper with another description. -/
def Wrapper.describe (w : Wrapper) (description : Option String) : Wrapper :=
  { w with signature := { w.signature with description := description } }

/-- The function without descriptions. -/
def ForeignFunction.undescribed (f : ForeignFunction) : ForeignFunction :=
  { f with wrappings := f.wrappings.map (·.describe none) }

/-- The catalog without descriptions. -/
def FunctionCatalog.undescribed (c : FunctionCatalog) : FunctionCatalog :=
  ⟨c.functions.map ForeignFunction.undescribed⟩

/-- The draft without descriptions. -/
def Draft.undescribed (draft : Draft) : Draft :=
  { draft with wrappers := draft.wrappers.map (·.describe none) }

/-- The unit without descriptions. -/
def SourceUnit.undescribed (u : SourceUnit) : SourceUnit :=
  { u with wrappers := u.wrappers.map (·.describe none) }

/-! ## Pairs -/

namespace Wrapping

variable (f : ForeignFunction) (w : Wrapping)

theorem checkNames_undescribed : checkNames f.undescribed (w.describe none) = checkNames f w := by
  have houtputs : ∀ names seen, checkOutputs f.undescribed (w.describe none) seen names =
      checkOutputs f w seen names := by
    intro names
    induction names with
    | nil => exact fun _ => rfl
    | cons name rest ih =>
      intro seen
      rw [checkOutputs, checkOutputs, ih]
      rfl
  have hmapped : ∀ names, checkMapped f.undescribed names = checkMapped f names := by
    intro names
    induction names with
    | nil => rfl
    | cons name rest ih =>
      rw [checkMapped, checkMapped, ih]
      rfl
  rw [checkNames, checkNames, houtputs, hmapped]
  rfl

theorem addRows_undescribed (args : List Argument) :
    ∀ above, addRows f.undescribed (w.describe none) above args = addRows f w above args := by
  induction args with
  | nil => exact fun _ => rfl
  | cons a rest ih =>
    intro above
    have hrow : row f.undescribed (w.describe none) above a = row f w above a := rfl
    simp only [addRows, hrow, ih]

/-- The table of a function does not depend on descriptions. -/
theorem table_undescribed : (w.describe none).table f.undescribed = w.table f := by
  have harguments : f.undescribed.arguments = f.arguments := rfl
  rw [table, table, checkNames_undescribed, harguments, addRows_undescribed]
  rfl

/-- **A pair without its description gives the same declaration and the same wrapper without its
description.** -/
theorem derive_undescribed (stem : String) : (w.describe none).derive stem f.undescribed =
    (w.derive stem f).map fun pair => (pair.1, pair.2.describe none) := by
  rw [derive, derive, table_undescribed]
  cases w.table f with
  | error fault => rfl
  | ok t =>
    have hreturns : ∀ types,
      ArgumentTable.returnShape (f.undescribed.wrapperName (w.describe none)) types
        (w.describe none).convention f.undescribed.returns =
          ArgumentTable.returnShape (f.wrapperName w) types w.convention f.returns := fun _ => rfl
    simp only [bind, Except.bind, ArgumentTable.signature, hreturns]
    cases ArgumentTable.returnShape (f.wrapperName w) t.outputTypes w.convention f.returns <;> rfl

end Wrapping

/-! ## Units -/

namespace Draft

variable (v : Variant) (draft : Draft)

theorem add_undescribed (f : ForeignFunction) (w : Wrapping) :
    draft.undescribed.add v (f.undescribed, w.describe none) =
        (draft.add v (f, w)).map undescribed := by
  rw [add_eq, add_eq, Wrapping.derive_undescribed]
  cases w.derive v.symbolStem f with
  | error fault => rfl
  | ok pair =>
    have hdeclare : draft.undescribed.declare pair.1 = draft.declare pair.1 := rfl
    have hnames : (draft.undescribed.wrappers.any fun other =>
      other.signature.name == pair.2.signature.name) =
        draft.wrappers.any fun other => other.signature.name == pair.2.signature.name := by
      rw [undescribed, List.any_map]
      rfl
    have hname : (pair.2.describe none).signature.name = pair.2.signature.name := rfl
    simp only [Except.map, Except.mapError, bind, Except.bind, hdeclare, hname, hnames]
    cases draft.declare pair.1 with
    | none => rfl
    | some declarations =>
      simp only [need, reject]
      split
      · rfl
      · simp [undescribed, pure, Except.pure]

/-- A run without descriptions stops where the run with them stops. -/
theorem addAll_undescribed (pairs : List (ForeignFunction × Wrapping)) :
    ∀ draft : Draft, draft.undescribed.addAll v (pairs.map fun pair =>
      (pair.1.undescribed, pair.2.describe none)) =
      ((draft.addAll v pairs).1.undescribed, (draft.addAll v pairs).2) := by
  induction pairs with
  | nil => exact fun _ => rfl
  | cons pair rest ih =>
    intro draft
    rw [List.map_cons, addAll, addAll, add_undescribed]
    cases draft.add v pair with
    | error e => rfl
    | ok next => exact ih next

end Draft

namespace FunctionCatalog

variable (c : FunctionCatalog) (o : Options) (v : Variant)

theorem wrappingPairs_undescribed (backend : Backend) :
    wrappingPairs (c.undescribed.forBackend backend) =
    (wrappingPairs (c.forBackend backend)).map fun pair =>
        (pair.1.undescribed, pair.2.describe none) := by
  have hfunctions : c.undescribed.forBackend backend = (c.forBackend backend).map
      ForeignFunction.undescribed := by
    rw [forBackend, forBackend, undescribed, List.filter_map]
    rfl
  rw [hfunctions, wrappingPairs, wrappingPairs, List.flatMap_map, List.map_flatMap]
  simp only [ForeignFunction.undescribed, List.map_map, Function.comp_def]

/-- **A catalog without descriptions gives the same unit without descriptions, or the same error.**
-/
theorem assemble_undescribed :
    c.undescribed.assemble o v = (c.assemble o v).map SourceUnit.undescribed := by
  have hdraft : c.undescribed.draft v = ((c.draft v).1.undescribed, (c.draft v).2) := by
    rw [draft, wrappingPairs_undescribed]
    exact Draft.addAll_undescribed v _ Draft.empty
  rw [assemble, assemble, hdraft]
  rcases c.draft v with ⟨draft, _ | e⟩
  · have hallocates : draft.undescribed.wrappers.any Wrapper.allocates =
        draft.wrappers.any Wrapper.allocates := by
      rw [Draft.undescribed, List.any_map]
      rfl
    simp only [Except.map, finish, hallocates]
    rfl
  · rfl

end FunctionCatalog

/-! ## Lines of texts -/

/-- No line of a text holds a line feed. -/
theorem Text.lineFeed_notMem_lines {s l : List Char} (h : l ∈ Text.lines s) : '\n' ∉ l := by
  have hpieces : ∀ piece ∈ s.splitOnP (· == '\n'), '\n' ∉ piece := fun piece hpiece hmem =>
    absurd (Text.splitOnP_free _ s piece hpiece '\n' hmem) (by decide)
  rw [Text.lines, List.mem_append] at h
  rcases h with h | h
  · obtain ⟨piece, hpiece, rfl⟩ := List.mem_map.mp h
    intro hmem
    refine hpieces piece (List.dropLast_subset _ hpiece) ?_
    rw [Text.dropReturn] at hmem
    split at hmem
    · exact List.dropLast_subset _ hmem
    · exact hmem
  · split at h
    · cases h
    · rw [List.mem_singleton.mp h]
      rw [List.getLast?_eq_some_getLast (List.splitOnP_ne_nil _ s), Option.getD_some]
      exact hpieces _ (List.getLast_mem _)

namespace Source

/-- Joined lines are cut off from what follows, whatever that is. -/
theorem exists_splitOn_ofLines (lines : List String) :
    ∃ pieces, ∀ rest, ((ofLines lines).toList ++ rest).splitOn '\n' = pieces ++
        rest.splitOn '\n' := by
  induction lines with
  | nil => exact ⟨[], fun _ => rfl⟩
  | cons first others ih =>
    obtain ⟨pieces, hpieces⟩ := ih
    refine ⟨first.toList.splitOn '\n' ++ pieces, fun rest => ?_⟩
    have htext : (ofLines (first :: others)).toList ++ rest = first.toList ++
      '\n' :: ((ofLines others).toList ++ rest) := by simp
    rw [htext, List.splitOn_append_cons_self, hpieces, List.append_assoc]

/-- Joined lines that hold no line feed are cut where they were joined. -/
theorem splitOn_ofLines {lines : List String} (h : ∀ l ∈ lines, '\n' ∉ l.toList)
    (rest : List Char) :
    ((ofLines lines).toList ++ rest).splitOn '\n' = lines.map String.toList ++
        rest.splitOn '\n' := by
  induction lines with
  | nil => rfl
  | cons first others ih =>
    obtain ⟨hfirst, hothers⟩ := List.forall_mem_cons.mp h
    have htext : (ofLines (first :: others)).toList ++ rest = first.toList ++
      '\n' :: ((ofLines others).toList ++ rest) := by simp
    rw [htext, List.splitOn_append_cons_self_of_not_mem hfirst, ih hothers, List.map_cons,
      List.cons_append]

/-- What a text starts with, up to a line feed, is in its first piece. -/
theorem exists_splitOn_eq_cons {start : List Char} (h : '\n' ∉ start) (rest : List Char) :
    ∃ first others, (start ++ rest).splitOn '\n' = first :: others ∧ start <+: first := by
  by_cases hrest : '\n' ∈ rest
  · obtain ⟨front, back, rfl, hfront⟩ := List.eq_append_cons_of_mem hrest
    refine ⟨start ++ front, back.splitOn '\n', ?_, List.prefix_append _ _⟩
    rw [← List.append_assoc, List.splitOn_append_cons_self_of_not_mem]
    simp [h, hfront]
  · refine ⟨start ++ rest, [], List.splitOn_eq_singleton ?_, List.prefix_append _ _⟩
    simp [h, hrest]

/-! ## Documentation -/

/-- What a line of documentation says: nothing where the mark stands alone, and otherwise what
follows the mark and a blank. -/
def documented? (l : String) : Option String :=
  if l = "///" then some "" else ("/// ".toList.isPrefixOf? l.toList).map String.ofList

/-- A line of documentation says the line that it was made of. -/
theorem documented?_docLine (text : String) : documented? (docLine text) = some text := by
  rw [docLine]
  split
  · rename_i hempty
    rw [String.isEmpty_iff.mp hempty]
    rfl
  · rename_i hne
    have hmark : "/// " ++ text ≠ "///" := by
      intro hsame
      have hlength := congrArg (fun l => l.toList.length) hsame
      simp at hlength
    rw [documented?, if_neg hmark]
    simp [List.isPrefixOf?]

/-- A line of documentation starts with the mark. -/
theorem prefix_docLine (text : String) : "///".toList <+: (docLine text).toList := by
  rw [docLine]
  split
  · exact List.prefix_rfl
  · exact ⟨' ' :: text.toList, by simp⟩

/-- Documentation says the lines of its description, one by one. -/
theorem map_documented?_docLines (description : String) :
    (docLines description).map documented? = (Text.lines description.toList).map fun l =>
        some (String.ofList l) := by
  rw [docLines, List.map_map]
  exact List.map_congr_left fun l _ => documented?_docLine (String.ofList l)

/-- Documentation holds no line feeds. -/
theorem lineFeed_notMem_docLines {description l : String} (h : l ∈ docLines description) :
    '\n' ∉ l.toList := by
  obtain ⟨content, hcontent, rfl⟩ := List.mem_map.mp h
  have hfree := Text.lineFeed_notMem_lines hcontent
  rw [docLine]
  split <;> simp [hfree]

end Source

/-! ## Wrappers -/

/-- A signature starts so. -/
theorem Signature.exists_lines_eq (s : Signature) :
    ∃ first others, s.listing.lines = first :: others ∧ "pub fn ".toList <+: first.toList := by
  have hopening : ∀ rest,
      "pub fn ".toList <+: (line 0 ("pub fn " ++ s.name ++ "(" ++ rest)).toList := fun rest =>
    ⟨s.name.toList ++ '(' :: rest.toList, by simp [line, indent]⟩
  rw [Listing.lines]
  split
  · refine ⟨_, [], rfl, ?_⟩
    have hinner : s.listing.oneLine = line 0 ("pub fn " ++ s.name ++ "(" ++
        (", ".intercalate s.listing.items ++ s.listing.closing)) := by
      rw [← String.append_assoc]
      rfl
    rw [hinner]
    exact hopening _
  · refine ⟨_, _, rfl, ?_⟩
    rw [← String.append_empty (s := s.listing.opening)]
    exact hopening ""

/-- A wrapper with a description is its documentation and the wrapper without one. -/
theorem Wrapper.lines_describe (w : Wrapper) (description : String) :
    (w.describe (some description)).lines = docLines description ++ (w.describe none).lines :=
  rfl

/-- A wrapper without a description starts with its signature. -/
theorem Wrapper.exists_lines_eq (w : Wrapper) :
    ∃ first others, (w.describe none).lines = first :: others ∧
        "pub fn ".toList <+: first.toList := by
  obtain ⟨first, others, hlines, hstart⟩ := (w.describe none).signature.exists_lines_eq
  refine ⟨first, others ++ (w.describe none).body.flatMap
    (Statement.lines (w.describe none).resultName) ++ ["\x7d"], ?_, hstart⟩
  rw [lines, code, hlines]
  rfl

/-- The unit with other wrappers. -/
def SourceUnit.withWrappers (u : SourceUnit) (wrappers : List Wrapper) : SourceUnit :=
  { u with wrappers := wrappers }

/-- The lines of a unit are some lines in front of a wrapper, the wrapper, and some lines behind it.
-/
theorem SourceUnit.exists_lines_withWrappers (u : SourceUnit) (earlier later : List Wrapper) :
    ∃ front back, ∀ w : Wrapper, (u.withWrappers (earlier ++ w :: later)).lines = front ++
        w.lines ++ back := by
  refine ⟨u.variant.headerLines ++ useLines u.uses ++ u.variant.byteLengths.all.map Constant.line ++
    [""] ++ u.foreignLines ++
      (earlier.flatMap fun w => "" :: w.lines) ++ [""],
    (later.flatMap fun w => "" :: w.lines) ++ (u.selfTest.toList.flatMap fun t => "" :: t.lines),
    fun w => ?_⟩
  have hforeign : (u.withWrappers (earlier ++ w :: later)).foreignLines = u.foreignLines := rfl
  rw [lines, hforeign]
  simp [withWrappers]

/-- **A description can only ever become documentation.** In front of the `pub fn` of a wrapper
stands one line for each line of its description, in order: each starts with the mark of a comment,
holds no line feed, and says that line; all other lines are those of the wrapper without a
description.  So they are in the text of any unit with the wrapper: cut at its line feeds, it is the
text without the description, with these lines right before the `pub fn`.  And a catalog without
descriptions gives the same units but for them. -/
theorem description_only_documents (w : Wrapper) (description : String) :
    (w.describe (some description)).lines = docLines description ++ (w.describe none).lines ∧
      (∃ first others, (w.describe none).lines = first :: others ∧
        "pub fn ".toList <+: first.toList) ∧
      (docLines description).map documented? = ((Text.lines description.toList).map fun l =>
        some (String.ofList l)) ∧
      (∀ l ∈ docLines description, "///".toList <+: l.toList ∧ '\n' ∉ l.toList) ∧
      (∀ (u : SourceUnit) (earlier later : List Wrapper), ∃ front first back,
        (u.withWrappers (earlier ++ w.describe none :: later)).render.toList.splitOn '\n' = front ++
          first :: back ∧
          (u.withWrappers (earlier ++ w.describe (some description) :: later)).render.toList.splitOn
            '\n' =
            front ++ (docLines description).map String.toList ++ first :: back ∧
              "pub fn ".toList <+: first) ∧
      ∀ (c : FunctionCatalog) (o : Options) (v : Variant),
        c.undescribed.assemble o v = (c.assemble o v).map SourceUnit.undescribed := by
  refine ⟨w.lines_describe description, w.exists_lines_eq, map_documented?_docLines description, ?_,
    ?_, FunctionCatalog.assemble_undescribed⟩
  · intro l hl
    refine ⟨?_, lineFeed_notMem_docLines hl⟩
    obtain ⟨content, -, rfl⟩ := List.mem_map.mp hl
    exact prefix_docLine _
  · intro u earlier later
    obtain ⟨front, back, hlines⟩ := u.exists_lines_withWrappers earlier later
    obtain ⟨pieces, hpieces⟩ := exists_splitOn_ofLines front
    obtain ⟨code, others, hcode, start, hstart⟩ := w.exists_lines_eq
    -- what follows the documentation starts with the signature
    have hrest : ∃ rest, (ofLines ((w.describe none).lines ++ back)).toList =
        "pub fn ".toList ++ rest := by
      refine ⟨start ++ '\n' :: (ofLines (others ++ back)).toList, ?_⟩
      rw [hcode]
      simp [← hstart]
    obtain ⟨rest, hrest⟩ := hrest
    have hfree : '\n' ∉ "pub fn ".toList := by decide
    obtain ⟨first, after, hfirst, hprefix⟩ := exists_splitOn_eq_cons hfree rest
    refine ⟨pieces, first, after, ?_, ?_, hprefix⟩
    · rw [SourceUnit.render, hlines, List.append_assoc, ofLines_append, String.toList_append,
        hpieces, hrest, hfirst]
    · rw [SourceUnit.render, hlines, w.lines_describe, List.append_assoc, ofLines_append,
        String.toList_append, hpieces, List.append_assoc (docLines description), ofLines_append,
        String.toList_append, splitOn_ofLines fun l hl => lineFeed_notMem_docLines hl, hrest,
        hfirst, List.append_assoc]

example :
    docLines "Opens.\r\n\n/// m\rn\n" = ["/// Opens.", "///", "/// /// m\rn"] := by decide +kernel

end Bindery
