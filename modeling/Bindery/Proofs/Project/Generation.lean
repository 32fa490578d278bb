/-
# Bindery.Proofs.Project.Generation -- what a run of the generator changes.

All that can go wrong before the first write is looked at before the first write: the manifest, both
catalogs and the derivation of every unit.  So a run that fails for one of these reasons has changed
nothing, and a run that succeeds has changed the files of the units and no others.  Commands that
only look change nothing, however they end.
-/
import Bindery.CommandLine
import Bindery.Proofs.Project.Writing

namespace Bindery

open Program CommandLine

variable {t after : FileTree}

namespace Project

/-! ## Generating -/

/-- **A run succeeds by writing the files of the units that follow from the catalogs.** -/
theorem generate_ends_ok_iff {project : Located} {u : Unit} :
    (generate project).Ends t (.ok u) after ↔
      ∃ units, Derives t project units ∧ (writeAll (units.map project.fileOf)).Ends t
          (.ok ()) after := by
  simp only [generate, bind_ends_ok_iff, unitFiles_ends_ok_iff, say_ends_iff]
  constructor
  · rintro ⟨files, _, ⟨⟨units, hderives, rfl⟩, rfl⟩, _, _, hwritten, -, rfl⟩
    exact ⟨units, hderives, hwritten⟩
  · rintro ⟨units, hderives, hwritten⟩
    exact ⟨_, t, ⟨⟨units, hderives, rfl⟩, rfl⟩, (), after, hwritten, trivial, rfl⟩

/-- A run fails before it writes, or because units that it has derived cannot be written. -/
theorem generate_ends_error {project : Located} {f : Failure}
    (h : (generate project).Ends t (.error f) after) :
    f.precedesWriting = true ∧ after = t ∨ f.precedesWriting = false ∧ ∃ units,
        Derives t project units := by
  rw [generate, bind_ends_error_iff] at h
  rcases h with hfiles | ⟨files, middle, hfiles, h⟩
  · exact Or.inl ⟨(unitFiles_looks project).failure_of_ends hfiles,
      ((unitFiles_looks project).tree_of_ends hfiles).symm⟩
  · right
    obtain ⟨⟨units, hderives, rfl⟩, rfl⟩ := unitFiles_ends_ok_iff.mp hfiles
    refine ⟨?_, units, hderives⟩
    rcases bind_ends_error_iff.mp h with hwrite | ⟨_, _, -, hsay⟩
    · exact (writeAll_within _).failure_of_ends hwrite
    · cases (say_ends_iff.mp hsay).1

/-! ## Looking -/

theorem checkVariant_readOnly (directory : Path) (v : Variant) :
    (checkVariant directory v).ReadOnly := by
  rw [checkVariant]
  exact Within.bind (readText_within _) fun _ => Within.bind (orFail_within _ fun _ =>
      trivial) fun _ =>
    Within.bind (orFail_within _ fun _ => trivial) fun _ => report_within _ _

theorem checkVariants_readOnly (directory : Path) (variants : List Variant) :
    (checkVariants directory variants).ReadOnly := by
  induction variants with
  | nil => exact pure_within _
  | cons v rest ih =>
    rw [checkVariants]
    exact (checkVariant_readOnly directory v).bind fun _ => ih

theorem checkConstants_readOnly (project : Located) (directory : Option String) :
    (checkConstants project directory).ReadOnly := by
  rw [checkConstants.eq_def]
  refine (loadWith_looks _ _ _).readOnly.bind fun parameters =>
    Within.bind (kindOf_within _) fun kind => ?_
  split
  · exact Within.bind ((checkVariants_readOnly _ _).bind fun _ => pure_within _) fun _ =>
      say_within _
  · exact fail_within trivial

theorem emitIndex_readOnly (project : Located) : (emitIndex project none).ReadOnly := by
  rw [emitIndex]
  exact (loadParameters_looks _).readOnly.bind fun _ => say_within _

/-! ## Runs -/

section Runs

variable {i : Invocation} {here : Path}

theorem program_of_generate (hcommand : i.command = .generate false) :
    i.program here = (find here >>= generate) := by
  rw [Invocation.program, hcommand]

theorem program_of_check (hcommand : i.command = .generate true) :
    i.program here = (find here >>= checkGenerated) := by
  rw [Invocation.program, hcommand]

/-- A run that succeeds has found a project and written the files of its units. -/
theorem written_of_generate (hcommand : i.command = .generate false)
    (h : (i.program here).Ends t (.ok ()) after) :
    ∃ nearer project units, IsNearest t (here :: here.parents) nearer project ∧
      Derives t project units ∧
      Written (units.map project.fileOf) t after := by
  rw [program_of_generate hcommand] at h
  obtain ⟨project, middle, hfind, hgenerate⟩ := bind_ends_ok_iff.mp h
  obtain ⟨⟨nearer, hnearest⟩, rfl⟩ := findIn_ends_ok_iff.mp hfind
  obtain ⟨units, hderives, hwritten⟩ := generate_ends_ok_iff.mp hgenerate
  exact ⟨nearer, project, units, hnearest, hderives, writeAll_written hwritten⟩

/-- A run that fails has not begun to write, or it has found a project with units. -/
theorem generate_cases (hcommand : i.command = .generate false) {f : Failure}
    (h : (i.program here).Ends t (.error f) after) :
    f.precedesWriting = true ∧ after = t ∨
      f.precedesWriting = false ∧
        ∃ nearer project units, IsNearest t (here :: here.parents) nearer project ∧
            Derives t project units := by
  rw [program_of_generate hcommand] at h
  rcases bind_ends_error_iff.mp h with hfind | ⟨project, middle, hfind, hgenerate⟩
  · exact Or.inl ⟨(findIn_looks _).failure_of_ends hfind,
      ((findIn_looks _).tree_of_ends hfind).symm⟩
  · obtain ⟨⟨nearer, hnearest⟩, rfl⟩ := findIn_ends_ok_iff.mp hfind
    rcases generate_ends_error hgenerate with hearly | ⟨hlate, units, hderives⟩
    · exact Or.inl hearly
    · exact Or.inr ⟨hlate, nearer, project, units, hnearest, hderives⟩

/-- Checks and the index, unless it is written, change nothing. -/
theorem program_readOnly
    (hcommand : i.command = .generate true ∨ (∃ directory, i.command = .checkConstants directory) ∨
    i.command = .index none) :
    (i.program here).ReadOnly := by
  rcases hcommand with hcheck | ⟨directory, hconstants⟩ | hindex
  · rw [program_of_check hcheck]
    exact (findIn_looks _).readOnly.bind checkGenerated_readOnly
  · rw [Invocation.program, hconstants]
    exact (findIn_looks _).readOnly.bind fun project => checkConstants_readOnly project directory
  · rw [Invocation.program, hindex]
    exact (findIn_looks _).readOnly.bind emitIndex_readOnly

end Runs

end Project

open Project

/-- **A run that fails before it writes has changed nothing, a run that succeeds has changed the
files of the units alone, and looking changes nothing.**  Trees have no links, so a file stands at
one location. -/
theorem generation_changes_only_units (i : Invocation) (here : Path) (t : FileTree) :
    (i.command = .generate false →
      (∀ f after, (i.program here).Ends t (.error f) after → f.precedesWriting = true → after = t) ∧
      ((∀ nearer project units, IsNearest t (here :: here.parents) nearer project →
        ¬ Derives t project units) →
        ∃ f, f.precedesWriting = true ∧ (i.program here).Ends t (.error f) t) ∧
      ∀ after, (i.program here).Ends t (.ok ()) after →
        ∃ nearer project units, IsNearest t (here :: here.parents) nearer project ∧
          Derives t project units ∧
          (∀ location,
            (∀ u ∈ units, (project.manifest.unitPath project.root u.variant).location ≠ location) →
            after.root.contentAt? location = t.root.contentAt? location) ∧
          ∀ u ∈ units, after.kind? (project.manifest.unitPath project.root u.variant) =
            some .file) ∧
    (i.command = .generate true ∨ (∃ directory, i.command = .checkConstants directory) ∨
    i.command = .index none →
      ((i.program here).run t).tree = t) := by
  refine ⟨?_, fun hcommand => ((program_readOnly hcommand).trees t).symm⟩
  intro hcommand
  refine ⟨?_, ?_, ?_⟩
  · intro f after hends hearly
    rcases generate_cases hcommand hends with ⟨-, hsame⟩ | ⟨hlate, -⟩
    · exact hsame
    · rw [hearly] at hlate
      cases hlate
  · intro hnone
    have hends := (i.program here).ends_run t
    cases hresult : ((i.program here).run t).result with
    | ok u =>
      rw [hresult] at hends
      obtain ⟨nearer, project, units, hnearest, hderives, -⟩ := written_of_generate hcommand hends
      exact absurd hderives (hnone nearer project units hnearest)
    | error f =>
      rw [hresult] at hends
      rcases generate_cases hcommand hends with ⟨hearly, hsame⟩ | ⟨-, nearer, project, units,
        hnearest, hderives⟩
      · exact ⟨f, hearly, hresult, hsame⟩
      · exact absurd hderives (hnone nearer project units hnearest)
  · intro after hends
    obtain ⟨nearer, project, units, hnearest, hderives, hwritten⟩ :=
      written_of_generate hcommand hends
    refine ⟨nearer, project, units, hnearest, hderives, ?_, ?_⟩
    · intro location hother
      exact hwritten.content_of_forall_ne (List.forall_mem_map.mpr hother)
    · intro u hu
      have hfile := hwritten.kind?_eq_file (List.mem_map_of_mem hu)
      rwa [Located.fileOf_path] at hfile

/-! ## A sample -/

/-- The manifest of the sample; the template is that of the files of its units. -/
def sampleManifest (template : String) : String :=
  "catalog = [\"api\", \"sets\"]\noutput = [\"out\", \"" ++ template ++ "\", [], []]\n"

/-- The parameter catalog of the sample, with two backends. -/
def sampleSets : String :=
  "[\"sig\",\"lib\",[[2,1,1,1,[\"clean\",\"avx2\"]]]]"

/-- A tree with a project in one directory, from which two units without functions follow. -/
def sampleTree (template : String) : FileTree :=
  ⟨[("p", .directory [
      ("wrapgen.toml", .file (sampleManifest template).toUTF8),
      ("api", .file "[[]]".toUTF8),
      ("sets", .file sampleSets.toUTF8)])]⟩

/-- The project of the sample. -/
def sampleProject (template : String) : Located :=
  ⟨⟨"/p"⟩, ⟨⟨"api", "sets"⟩, ⟨"out", template, [], []⟩, {}, "extern"⟩⟩

/-- The unit of a backend in the sample. -/
def bareUnit (backend : Backend) : SourceUnit :=
  ⟨⟨"sig", "lib", ⟨2, 1, 1, 1, [.clean, .avx2]⟩, backend⟩, [], [], [], none⟩

/-- The template that gives each unit a file of its own. -/
def moduleTemplate : String := "\x7bmodule\x7d.rs"

/-- The generator with its default log. -/
def sampleRun : Invocation := ⟨.generate false, false, false⟩

/-- The tree that the run leaves. -/
def generatedTree (template : String) : FileTree :=
  ((sampleRun.program ⟨"/p"⟩).run (sampleTree template)).tree

theorem isNearest_sampleProject :
    IsNearest (sampleTree moduleTemplate) [⟨"/p"⟩, ⟨"/"⟩] [] (sampleProject moduleTemplate) :=
  ⟨⟨[⟨"/"⟩], rfl⟩, nofun, sampleManifest moduleTemplate, by decide +kernel, by decide +kernel⟩

theorem derives_bareUnit : Derives (sampleTree moduleTemplate) (sampleProject moduleTemplate)
    [bareUnit .clean, bareUnit .avx2] :=
  ⟨⟨[]⟩, ⟨"sig", "lib", [⟨2, 1, 1, 1, [.clean, .avx2]⟩]⟩,
    ⟨"[[]]", by decide +kernel, by decide +kernel⟩,
    ⟨sampleSets, by decide +kernel, by decide +kernel⟩, by decide +kernel⟩

/-- The run of the sample succeeds and has written two files that were not there.  They hold the
sources of the two units, and nothing else in the tree has changed. -/
theorem sample_run_changes_only_units :
    (sampleRun.program ⟨"/p"⟩).Ends (sampleTree moduleTemplate) (.ok ())
        (generatedTree moduleTemplate) ∧
      (∀ location, location ≠ ["p", "out", "sig2_clean.rs"] →
        location ≠ ["p", "out", "sig2_avx2.rs"] →
        (generatedTree moduleTemplate).root.contentAt? location =
          (sampleTree moduleTemplate).root.contentAt? location) ∧
      ((sampleTree moduleTemplate).root.contentAt? ["p", "out", "sig2_clean.rs"] = none ∧
        (generatedTree moduleTemplate).root.contentAt? ["p", "out", "sig2_clean.rs"] =
          some (bareUnit .clean).render.toUTF8) ∧
      ((sampleTree moduleTemplate).root.contentAt? ["p", "out", "sig2_avx2.rs"] = none ∧
        (generatedTree moduleTemplate).root.contentAt? ["p", "out", "sig2_avx2.rs"] =
          some (bareUnit .avx2).render.toUTF8) := by
  have hends : (sampleRun.program ⟨"/p"⟩).Ends (sampleTree moduleTemplate) (.ok ())
      (generatedTree moduleTemplate) := ⟨by decide +kernel, rfl⟩
  -- the units have files at two locations
  have hclean : ((sampleProject moduleTemplate).fileOf (bareUnit .clean)).path.location =
      ["p", "out", "sig2_clean.rs"] := by decide +kernel
  have havx2 : ((sampleProject moduleTemplate).fileOf (bareUnit .avx2)).path.location =
      ["p", "out", "sig2_avx2.rs"] := by decide +kernel
  obtain ⟨nearer, project, units, hnearest, hderives, hframe, -⟩ :=
    ((generation_changes_only_units sampleRun ⟨"/p"⟩ _).1 rfl).2.2 _ hends
  obtain rfl := isNearest_sampleProject.unique hnearest
  obtain rfl := derives_bareUnit.unique hderives
  obtain ⟨nearer, project, units, hnearest, hderives, hwritten⟩ := written_of_generate rfl hends
  obtain rfl := isNearest_sampleProject.unique hnearest
  obtain rfl := derives_bareUnit.unique hderives
  refine ⟨hends, ?_, ⟨by decide +kernel, ?_⟩, ⟨by decide +kernel, ?_⟩⟩
  · intro location hnotClean hnotAvx2
    refine hframe location (List.forall_mem_cons.mpr ⟨?_, List.forall_mem_singleton.mpr ?_⟩)
    · exact fun hlocation => hnotClean (hlocation.symm.trans hclean)
    · exact fun hlocation => hnotAvx2 (hlocation.symm.trans havx2)
  · rw [← hclean]
    refine hwritten.content_of_same_text List.mem_cons_self
      (List.forall_mem_cons.mpr ⟨fun _ => rfl, List.forall_mem_singleton.mpr ?_⟩)
    rw [hclean, havx2]
    exact fun hlocation => absurd hlocation (by decide)
  · rw [← havx2]
    refine hwritten.content_of_same_text (List.mem_cons_of_mem _ List.mem_cons_self)
      (List.forall_mem_cons.mpr ⟨?_, List.forall_mem_singleton.mpr fun _ => rfl⟩)
    rw [hclean, havx2]
    exact fun hlocation => absurd hlocation (by decide)

end Bindery
