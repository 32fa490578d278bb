/-
# Bindery.Proofs.Project.Staleness -- a changed declaration makes files out of date.

The text of a unit tells its declarations.  What stands before their block depends on the variant
and the options, but for one import line, and a unit with that line cannot be taken for one without
it.  The declarations of a unit are plain where the functions of its catalog are, because a bound
type has the pointee of an argument.  So a file that was generated before a declaration changed does
not hold what is to be generated after it, and a check says so.
-/
import Bindery.Proofs.Project.Checking
import Bindery.Proofs.Source.Declarations
import Bindery.Proofs.Wrapper.Table

namespace Bindery

open Source Text Program CommandLine

/-! ## Declarations of units -/

/-- A pointer is plain when the text of its pointee is. -/
theorem ForeignType.plain_pointer_iff {access : Access} {pointee : String} :
    (pointer access pointee).Plain ↔ ∀ c ∈ pointee.toList, c ≠ ',' ∧ c ≠ '(' ∧ c ≠ ')' := by
  cases access <;> simp [Plain, render]

/-- What is spelled and plain stays so when a pointer's access is another. -/
theorem ForeignType.plain_of_access {access access' : Access} {pointee : String}
    (h : (pointer access pointee).Spelled ∧ (pointer access pointee).Plain) :
    (pointer access' pointee).Spelled ∧ (pointer access' pointee).Plain :=
  ⟨h.1, plain_pointer_iff.mpr (plain_pointer_iff.mp h.2)⟩

/-- The declaration of a function with plain names and types. -/
theorem Wrapping.plain_of_derive {stem : String} {f : ForeignFunction} {w : Wrapping}
    {d : Declaration} {wrapper : Wrapper}
    (h : w.derive stem f = .ok (d, wrapper)) (hplain : f.Plain) (hspelled : f.Spelled) :
    d.Plain stem := by
  obtain ⟨table, _, htable, -, rfl, -⟩ := derive_eq_ok_iff.mp h
  have hscanned : Scanned w f.arguments table.rows := (table_fits htable).rows
  refine ⟨⟨f.name, hplain.name, rfl⟩, ?_, hspelled.returns⟩
  rw [ArgumentTable.declaration, List.forall_mem_map]
  intro r hr
  obtain ⟨i, a, ha, hfits⟩ := hscanned.argument_of_mem hr
  have hname : IsWord r.name := by
    rw [hfits.name]
    exact (hplain.arguments a (List.mem_of_getElem? ha)).1
  have hbinding : r.binding.Spelled ∧ r.binding.Plain :=
    hscanned.binding_of_forall (P := fun t => t.Spelled ∧ t.Plain) ForeignType.plain_of_access
      (fun b hb => ⟨hspelled.arguments b hb, (hplain.arguments b hb).2⟩) hr
  exact ⟨hname, hbinding⟩

section Units

variable {text text' : String} {c c' : FunctionCatalog} {o : Options} {v : Variant}
  {u u' : SourceUnit}

/-- The declarations of a unit, where the functions of its catalog have plain names and types. -/
theorem FunctionCatalog.plain_of_assemble (hparse : parse text = .ok c)
    (hplain : ∀ f ∈ c.functions, f.Plain)
    (h : c.assemble o v = .ok u) : ∀ d ∈ u.declarations, d.Plain v.symbolStem := by
  intro d hd
  obtain ⟨⟨f, w⟩, hpair, wrapper, hderive⟩ := (assemble_taken h).declarations d hd
  have hf : f ∈ c.functions := mem_of_mem_forBackend (mem_wrappingPairs_iff.mp hpair).1
  exact Wrapping.plain_of_derive hderive (hplain f hf) (spelled_of_parse hparse hf)

/-- A unit has the imports of the options, and perhaps the one that buffers need. -/
theorem FunctionCatalog.uses_of_assemble (h : c.assemble o v = .ok u) :
    u.uses = o.uses ∨ u.uses = o.uses ++ [bufferImport] := by
  rw [uses_eq h]
  split
  · exact Or.inr rfl
  · exact Or.inl rfl

/-! ## Texts of units -/

/-- What stands between the imports of a unit and its declarations. -/
def Variant.preamble (v : Variant) : List Char :=
  (ofLines (v.byteLengths.all.map Constant.line ++ [""] ++ ["#[link(name = \"" ++ v.linkName ++
    "\")]", "extern \"C\" \x7b"])).toList

/-- The text of a unit up to the end of its declarations. -/
theorem SourceUnit.exists_toList_render (u : SourceUnit) : ∃ rest, u.render.toList =
    (ofLines u.variant.headerLines).toList ++ ((ofLines (useLines u.uses)).toList ++
      (u.variant.preamble ++ (blockText u.declarations ++ rest))) := by
  refine ⟨['\n'] ++ (ofLines ((u.wrappers.flatMap fun w => "" :: w.lines) ++
    (u.selfTest.toList.flatMap fun t => "" :: t.lines))).toList, ?_⟩
  simp only [render, lines, ofLines_append, String.toList_append, u.toList_foreignLines,
    Variant.preamble, List.append_assoc]

theorem Variant.exists_preamble_eq (v : Variant) : ∃ rest, v.preamble = 'p' :: rest := by
  simp [preamble, ByteLengths.all, Constant.line]

/-- With one import more, a unit goes on with that import where it would go on with an empty line or
a constant. -/
theorem Source.useLines_concat_ne (uses : List String) (rest rest' : List Char) :
    (ofLines (useLines uses)).toList ++ 'p' :: rest ≠
        (ofLines (useLines (uses ++ [bufferImport]))).toList ++ 'p' :: rest' := by
  cases uses with
  | nil => simp [useLines, bufferImport]
  | cons first others => simp [useLines, bufferImport]

/-- **Units of one variant with the same text have the same declarations.** -/
theorem SourceUnit.declarations_of_render (hvariant : u.variant = u'.variant)
    (hdeclarations : ∀ d ∈ u.declarations, d.Plain u.variant.symbolStem)
    (hdeclarations' : ∀ d ∈ u'.declarations, d.Plain u.variant.symbolStem)
    (huses : u.uses = o.uses ∨ u.uses = o.uses ++ [bufferImport])
    (huses' : u'.uses = o.uses ∨ u'.uses = o.uses ++ [bufferImport])
    (hrender : u.render = u'.render) : u.declarations = u'.declarations := by
  obtain ⟨rest, hrest⟩ := u.exists_toList_render
  obtain ⟨rest', hrest'⟩ := u'.exists_toList_render
  obtain ⟨others, hpreamble⟩ := u.variant.exists_preamble_eq
  have hsame : (ofLines (useLines u.uses)).toList ++
    'p' :: (others ++ (blockText u.declarations ++ rest)) =
      (ofLines (useLines u'.uses)).toList ++
          'p' :: (others ++ (blockText u'.declarations ++ rest')) := by
    rw [hrender, hrest', ← hvariant, List.append_cancel_left_eq, hpreamble] at hrest
    exact hrest.symm
  -- with the same imports the blocks stand at the same place; with others the texts would differ
  -- before them
  have hblocks : blockText u.declarations ++ rest = blockText u'.declarations ++ rest' := by
    rcases huses with huses | huses <;> rcases huses' with huses' | huses' <;>
      rw [huses, huses'] at hsame
    · simpa using hsame
    · exact absurd hsame (useLines_concat_ne _ _ _)
    · exact absurd hsame.symm (useLines_concat_ne _ _ _)
    · simpa using hsame
  exact (cutsOff_blockText _ hdeclarations hdeclarations' hblocks).1

/-- Two catalogs with plain names and types that give a variant's unit one text give it the same
declarations. -/
theorem FunctionCatalog.declarations_of_assemble (hparse : parse text = .ok c)
    (hparse' : parse text' = .ok c')
    (hplain : ∀ f ∈ c.functions, f.Plain) (hplain' : ∀ f ∈ c'.functions, f.Plain)
    (hu : c.assemble o v = .ok u)
    (hu' : c'.assemble o v = .ok u') (hrender : u.render = u'.render) :
    u.declarations = u'.declarations := by
  have hv : u.variant = v := assemble_variant hu
  have hv' : u'.variant = v := assemble_variant hu'
  refine SourceUnit.declarations_of_render (hv.trans hv'.symm) ?_ ?_ (uses_of_assemble hu)
    (uses_of_assemble hu') hrender
  · rw [hv]
    exact plain_of_assemble hparse hplain hu
  · rw [hv]
    exact plain_of_assemble hparse' hplain' hu'

end Units

/-! ## Logs -/

namespace Program

variable {ε α β : Type} {t middle : FileTree} {entry : LogEntry}

/-- What the first part of a program logs is logged. -/
theorem mem_log_bind_left {p : Program ε α} {k : α → Program ε β} (h : entry ∈ (p.run t).log) :
    entry ∈ ((p >>= k).run t).log := by
  rw [run_bind, Outcome.andThen]
  split
  · exact h
  · exact List.mem_append_left _ h

/-- What the second part of a program logs is logged, if the first part ends well. -/
theorem mem_log_bind_right {p : Program ε α} {k : α → Program ε β} {a : α}
    (hends : p.Ends t (.ok a) middle)
    (h : entry ∈ ((k a).run middle).log) : entry ∈ ((p >>= k).run t).log := by
  rw [run_bind, Outcome.andThen, hends.1]
  dsimp only
  rw [hends.2]
  exact List.mem_append_right _ h

theorem log_reportAll (entries : List LogEntry) (t : FileTree) :
    ((reportAll entries : Program ε Unit).run t).log = entries := by
  induction entries with
  | nil => rfl
  | cons entry rest ih => rw [reportAll, run, ih]

end Program

namespace Project

variable {t : FileTree} {project : Located} {units : List SourceUnit} {file : UnitFile}

/-! ## Checks -/

/-- A check that finds a file out of date fails, and names the file. -/
theorem checkGenerated_of_isStale (hderives : Derives t project units)
    (hfile : file ∈ units.map project.fileOf)
    (hstale : isStale t file = true) :
    ∃ stale, 0 < stale ∧
      (checkGenerated project).Ends t (.error (.outOfDate stale units.length)) t ∧
      ⟨.error, "out of date: " ++ file.path.text⟩ ∈ ((checkGenerated project).run t).log := by
  have hfiles : (unitFiles project).Ends t (.ok (units.map project.fileOf)) t :=
    unitFiles_ends_ok_iff.mpr ⟨⟨units, hderives, rfl⟩, rfl⟩
  have hamong : (staleAmong (units.map project.fileOf)).Ends t
      (.ok ((units.map project.fileOf).filter (isStale t))) t :=
    staleAmong_ends_iff.mpr ⟨rfl, rfl⟩
  have hmem : file ∈ (units.map project.fileOf).filter (isStale t) :=
    List.mem_filter.mpr ⟨hfile, hstale⟩
  have hstales : ((units.map project.fileOf).filter (isStale t)).isEmpty ≠ true := by
    rw [ne_eq, List.isEmpty_iff]
    exact List.ne_nil_of_mem hmem
  refine ⟨_, List.length_pos_of_mem hmem, ?_, ?_⟩
  · refine bind_ends_error_iff.mpr
      (.inr ⟨_, t, hfiles, bind_ends_error_iff.mpr (.inr ⟨_, t, hamong, ?_⟩)⟩)
    refine bind_ends_error_iff.mpr (.inr ⟨(), t, reportAll_ends_iff.mpr ⟨rfl, rfl⟩, ?_⟩)
    rw [if_neg hstales, List.length_map]
    exact fail_ends_iff.mpr ⟨rfl, rfl⟩
  · refine mem_log_bind_right hfiles (mem_log_bind_right hamong (mem_log_bind_left ?_))
    rw [log_reportAll]
    exact List.mem_map_of_mem hmem

end Project

open Project

/-- **A unit's text changes with its declarations, and a check notices it.** Two accepted catalogs
with plain names and types give one variant's unit the same text only with the same declarations; so
where the file of a unit holds what was generated for other declarations, a check fails and names
that file as out of date. -/
theorem declarations_of_same_text {text text' : String} {c c' : FunctionCatalog}
    (hparse : FunctionCatalog.parse text = .ok c)
    (hparse' : FunctionCatalog.parse text' = .ok c') (hplain : ∀ f ∈ c.functions, f.Plain)
    (hplain' : ∀ f ∈ c'.functions, f.Plain) :
    (∀ (o : Options) (v : Variant) (u u' : SourceUnit), c.assemble o v = .ok u →
    c'.assemble o v = .ok u' →
      u.render = u'.render → u.declarations = u'.declarations) ∧
    ∀ (i : Invocation) (here : Path) (t : FileTree) (nearer : List Path) (project : Located)
      (units : List SourceUnit),
      i.command = .generate true → IsNearest t (here :: here.parents) nearer project →
      t.read (project.manifest.functionsPath project.root) = .ok text' → Derives t project units →
      ∀ u' ∈ units, ∀ u, c.assemble project.manifest.options u'.variant = .ok u →
        t.read (project.fileOf u').path = .ok u.render → u.declarations ≠ u'.declarations →
        ∃ stale, 0 < stale ∧ ((i.program here).run t).result =
          .error (.outOfDate stale units.length) ∧
          ⟨.error, "out of date: " ++ (project.fileOf u').path.text⟩ ∈
              ((i.program here).run t).log := by
  have hrender : ∀ (o : Options) (v : Variant) (u u' : SourceUnit), c.assemble o v = .ok u →
    c'.assemble o v = .ok u' →
      u.render = u'.render → u.declarations = u'.declarations := fun _ _ _ _ =>
    FunctionCatalog.declarations_of_assemble hparse hparse' hplain hplain'
  refine ⟨hrender, ?_⟩
  intro i here t nearer project units hcommand hnearest hread hderives u' hmem u hu hfile hdiffer
  have hu' : c'.assemble project.manifest.options u'.variant = .ok u' := by
    obtain ⟨functions, parameters, ⟨held, hheld, hfunctions⟩, -, hunits⟩ := hderives
    obtain rfl : held = text' := Except.ok.inj (hheld.symm.trans hread)
    obtain rfl : functions = c' := Except.ok.inj (hfunctions.symm.trans hparse')
    exact (FunctionCatalog.assemble_of_mem hunits hmem).2
  have hstale : isStale t (project.fileOf u') = true := by
    rw [← Bool.not_eq_false, isStale_eq_false_iff, hfile, Located.fileOf_text]
    intro hsame
    exact hdiffer (hrender _ _ u u' hu hu' (Except.ok.inj hsame))
  obtain ⟨stale, hpos, hends, hlog⟩ :=
    checkGenerated_of_isStale hderives (List.mem_map_of_mem hmem) hstale
  have hfind : (find here).Ends t (.ok project) t :=
    findIn_ends_ok_iff.mpr ⟨⟨nearer, hnearest⟩, rfl⟩
  rw [program_of_check hcommand]
  exact ⟨stale, hpos, (bind_ends_error_iff.mpr (.inr ⟨project, t, hfind, hends⟩)).1,
    mem_log_bind_right hfind hlog⟩

/-! ## A sample -/

/-- A catalog of one function, whose parameter has a type. -/
def oneParameterText (type : String) : String :=
  "[[[\"f\",[[\"x\",\"" ++ type ++ "\"]]]]]"

/-- The function of that catalog. -/
def oneParameterFunction (type : String) : ForeignFunction :=
  ⟨"f", [⟨"x", .value type⟩], none, none, [⟨"", ⟨[]⟩, [], none, .identical, none⟩]⟩

/-- The variant of the project below. -/
def staleVariant : Variant :=
  ⟨"sig", "lib", ⟨2, 1, 1, 1, [.clean]⟩, .clean⟩

/-- The unit of that variant. -/
def oneParameterUnit (type : String) : SourceUnit :=
  FunctionCatalog.finish staleVariant {} (FunctionCatalog.draft ⟨[oneParameterFunction type]⟩
    staleVariant).1

/-- A project that leaves everything but its catalogs to the defaults. -/
def staleProject : Located :=
  ⟨⟨"/p"⟩, { catalog := ⟨"api", "sets"⟩ }⟩

/-- The manifest of the project. -/
def staleManifestText : String :=
  "catalog = [\"api\", \"sets\"]\n"

/-- The parameters of the project. -/
def staleParametersText : String :=
  "[\"sig\",\"lib\",[[2,1,1,1,[\"clean\"]]]]"

/-- A project whose parameter has changed its type since its unit was generated. -/
def staleTree : FileTree :=
  ⟨[("p", .directory [
      ("wrapgen.toml", .file staleManifestText.toUTF8),
      ("api", .file (oneParameterText "u16").toUTF8),
      ("sets", .file staleParametersText.toUTF8),
      ("src",
        .directory
        [("ffi", .directory [("sig2_clean.rs", .file (oneParameterUnit "u8").render.toUTF8)])])])]⟩

theorem isNearest_staleTree : IsNearest staleTree (⟨"/p"⟩ :: Path.parents ⟨"/p"⟩) [] staleProject :=
  ⟨⟨_, rfl⟩, nofun, staleManifestText, by decide +kernel, by decide +kernel⟩

theorem derives_staleTree : Derives staleTree staleProject [oneParameterUnit "u16"] := by
  refine ⟨⟨[oneParameterFunction "u16"]⟩, ⟨"sig", "lib", [⟨2, 1, 1, 1, [.clean]⟩]⟩, ?_,
    ?_, by decide +kernel⟩
  · exact ⟨oneParameterText "u16", by decide +kernel, by decide +kernel⟩
  · exact ⟨staleParametersText, by decide +kernel, by decide +kernel⟩

theorem path_staleProject :
    (staleProject.fileOf (oneParameterUnit "u16")).path = ⟨"/p/src/ffi/sig2_clean.rs"⟩ := by
  decide +kernel

/-- The file of the unit holds what was generated before. -/
theorem read_staleTree :
    staleTree.read ⟨"/p/src/ffi/sig2_clean.rs"⟩ = .ok (oneParameterUnit "u8").render := by
  have hreaches : staleTree.Reaches ⟨"/p/src/ffi/sig2_clean.rs"⟩ :=
    (FileTree.kind?_eq_file_iff.mp (by decide +kernel)).1
  exact FileTree.read_eq_ok_iff.mpr ⟨hreaches, rfl⟩

/-- The theorem at that project: the texts of the two units differ, and the check names the file of
the unit. -/
theorem changed_parameter_is_noticed :
    FunctionCatalog.parse (oneParameterText "u8") = .ok ⟨[oneParameterFunction "u8"]⟩ ∧
      FunctionCatalog.parse (oneParameterText "u16") = .ok ⟨[oneParameterFunction "u16"]⟩ ∧
      (oneParameterUnit "u8").render ≠ (oneParameterUnit "u16").render ∧
      ∃ stale, 0 < stale ∧ ((sampleCheck.program ⟨"/p"⟩).run staleTree).result =
        .error (.outOfDate stale 1) ∧
        ⟨.error, "out of date: /p/src/ffi/sig2_clean.rs"⟩ ∈
            ((sampleCheck.program ⟨"/p"⟩).run staleTree).log := by
  have hparse : FunctionCatalog.parse (oneParameterText "u8") =
    .ok ⟨[oneParameterFunction "u8"]⟩ := by decide +kernel
  have hparse' : FunctionCatalog.parse (oneParameterText "u16") =
    .ok ⟨[oneParameterFunction "u16"]⟩ := by decide +kernel
  have hplain : ∀ f ∈ [oneParameterFunction "u8"], f.Plain := by decide +kernel
  have hplain' : ∀ f ∈ [oneParameterFunction "u16"], f.Plain := by decide +kernel
  have hunit : FunctionCatalog.assemble ⟨[oneParameterFunction "u8"]⟩ {} staleVariant =
      .ok (oneParameterUnit "u8") := by
    decide +kernel
  have hunit' : FunctionCatalog.assemble ⟨[oneParameterFunction "u16"]⟩ {} staleVariant =
      .ok (oneParameterUnit "u16") := by
    decide +kernel
  have hdiffer : (oneParameterUnit "u8").declarations ≠ (oneParameterUnit "u16").declarations := by
    decide +kernel
  obtain ⟨htexts, hcheck⟩ := declarations_of_same_text hparse hparse' hplain hplain'
  refine ⟨hparse, hparse', fun hsame => hdiffer (htexts _ _ _ _ hunit hunit' hsame), ?_⟩
  have hread : staleTree.read (staleProject.manifest.functionsPath staleProject.root) =
      .ok (oneParameterText "u16") := by
    decide +kernel
  have hchecked :=
    hcheck sampleCheck ⟨"/p"⟩ staleTree [] staleProject [oneParameterUnit "u16"] rfl
      isNearest_staleTree hread
    derives_staleTree _ List.mem_cons_self _ hunit
      (by rw [path_staleProject, read_staleTree]) hdiffer
  rw [path_staleProject] at hchecked
  exact hchecked

end Bindery
