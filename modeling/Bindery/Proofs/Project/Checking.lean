/-
# Bindery.Proofs.Project.Checking -- checking what has just been generated.

A check that follows a run of the generator derives the same units again, as long as the run has not
written over the manifest or a catalog, and it compares each of them with what the run has left.
Two things can go wrong.  A path template may lead two units to one file; then the first of them is
lost, because units of different variants differ.  And a unit may be written where a nearer
directory has its manifest; then the check finds that file first, which is no manifest.
-/
import Bindery.Proofs.Files.Ancestors
import Bindery.Proofs.Project.Generation
import Bindery.Proofs.Source.FirstLine
import Bindery.Proofs.Unit.Modules

namespace Bindery

open Program CommandLine

variable {t before after : FileTree}

namespace Project

/-! ## Units and texts -/

/-- The units of a run are told apart by their texts. -/
theorem Derives.eq_of_render {project : Located} {units : List SourceUnit}
    (h : Derives t project units) {u u' : SourceUnit}
    (hu : u ∈ units) (hu' : u' ∈ units) (hrender : u.render = u'.render) : u = u' := by
  obtain ⟨functions, parameters, -, ⟨text, -, hparse⟩, hunits⟩ := h
  obtain ⟨hselected, hassemble⟩ := FunctionCatalog.assemble_of_mem hunits hu
  obtain ⟨hselected', hassemble'⟩ := FunctionCatalog.assemble_of_mem hunits hu'
  have hv : u.variant ∈ parameters.variants := List.mem_of_mem_filter hselected
  have hv' : u'.variant ∈ parameters.variants := List.mem_of_mem_filter hselected'
  have hscheme : u.variant.scheme = u'.variant.scheme :=
    (ParameterCatalog.scheme_of_mem_variants hv).trans
    (ParameterCatalog.scheme_of_mem_variants hv').symm
  obtain ⟨hlevel, hbackend⟩ := SourceUnit.variant_of_render hscheme hrender
  have hvariant :=
    ParameterCatalog.eq_of_mem_variants (ParameterCatalog.nodup_levels hparse) hv hv' hlevel
      hbackend
  rw [hvariant, hassemble'] at hassemble
  exact (Except.ok.inj hassemble).symm

/-- Files at one location have one text exactly where units at one location are one unit. -/
theorem Derives.texts_apart_iff {project : Located} {units : List SourceUnit}
    (h : Derives t project units) :
    (∀ file ∈ units.map project.fileOf, ∀ other ∈ units.map project.fileOf,
        file.path.location = other.path.location → file.text = other.text) ↔
      ∀ u ∈ units, ∀ u' ∈ units, (project.fileOf u).path.location =
          (project.fileOf u').path.location → u = u' := by
  simp only [List.forall_mem_map, Located.fileOf_text]
  constructor
  · intro htexts u hu u' hu' hlocation
    exact h.eq_of_render hu hu' (htexts u hu u' hu' hlocation)
  · intro hunits u hu u' hu' hlocation
    rw [hunits u hu u' hu' hlocation]

/-! ## Sources -/

/-- The files that a run reads: the manifest and the catalogs of the project. -/
def Located.sources (project : Located) : List Path :=
  [project.root / Manifest.fileName, project.manifest.functionsPath project.root,
    project.manifest.parametersPath project.root]

/-- **`project.Spares files`** -- none of some files is written over the manifest or a catalog of
the project. -/
def Located.Spares (project : Located) (files : List UnitFile) : Prop :=
  ∀ source ∈ project.sources, ∀ file ∈ files, file.path.location ≠ source.location

section Writing

variable {files : List UnitFile} {file : UnitFile} {directory : Path}
  {directories nearer : List Path} {project : Located}
  {units : List SourceUnit}

/-- A file over which nothing is written holds what it has held. -/
theorem Written.holds (hwritten : Written files before after) {path : Path} {p : String → Prop}
    (h : before.Holds path p)
    (hspared : ∀ file ∈ files, file.path.location ≠ path.location) : after.Holds path p :=
  h.grow hwritten.grows (hwritten.content_of_forall_ne hspared)

/-- The units of a project whose catalogs are spared follow from them as before. -/
theorem Derives.written (h : Derives before project units) (hwritten : Written files before after)
    (hspares : project.Spares files) :
    Derives after project units := by
  obtain ⟨functions, parameters, hfunctions, hparameters, hunits⟩ := h
  refine ⟨functions, parameters, ?_, ?_, hunits⟩
  · exact hwritten.holds hfunctions (hspares _ (by simp [Located.sources]))
  · exact hwritten.holds hparameters (hspares _ (by simp [Located.sources]))

/-! ## Manifests of nearer directories -/

/-- A file stands where a directory has its manifest, if any system takes the path of that manifest.
-/
def UnitFile.StandsAsManifest (file : UnitFile) (directory : Path) : Prop :=
  FileTree.checkText (directory / Manifest.fileName) = .ok () ∧ file.path.location =
    (directory / Manifest.fileName).location

theorem isName_fileName : Path.IsName Manifest.fileName :=
  ⟨by decide, by decide⟩

/-- Below a directory, a manifest is reached unless the text of its path is refused. -/
theorem reaches_manifest_iff (h : t.Leads [] directory.segments) :
    t.Reaches (directory / Manifest.fileName) ↔
        FileTree.checkText (directory / Manifest.fileName) = .ok () :=
  FileTree.reaches_join_iff h isName_fileName (by decide) (by decide)

/-- A directory that has a manifest after files have been written, and had none before, has one of
these files as its manifest. -/
theorem exists_standsAsManifest (hwritten : Written files before after)
    (hleads : before.Leads [] directory.segments)
    (hbefore : before.kind? (directory / Manifest.fileName) ≠ some .file)
    (hafter : after.kind? (directory / Manifest.fileName) = some .file) :
    ∃ file ∈ files, file.StandsAsManifest directory ∧
      after.root.contentAt? (directory / Manifest.fileName).location = some file.text.toUTF8 := by
  obtain ⟨hreaches, hsome⟩ := FileTree.kind?_eq_file_iff.mp hafter
  have hnone : ¬ (before.root.contentAt? (directory / Manifest.fileName).location).isSome := by
    intro hsome
    exact hbefore
      (FileTree.kind?_eq_file_iff.mpr ⟨(reaches_manifest_iff hleads).mpr hreaches.text, hsome⟩)
  rcases UnitFile.contentAfter_cases files (directory / Manifest.fileName).location
    (before.root.contentAt? (directory / Manifest.fileName).location) with ⟨-, hsame⟩ |
    ⟨file, hfile, hlocation, hcontent⟩
  · rw [hwritten.content, hsame] at hsome
    exact absurd hsome hnone
  · exact ⟨file, hfile, ⟨hreaches.text, hlocation⟩, (hwritten.content _).trans hcontent⟩

/-- A file that is written where a directory has its manifest is the manifest of that directory. -/
theorem UnitFile.StandsAsManifest.kind? (h : file.StandsAsManifest directory) (hfile : file ∈ files)
    (hwritten : Written files before after) (hleads : before.Leads [] directory.segments) :
    after.kind? (directory / Manifest.fileName) = some .file := by
  obtain ⟨other, -, -, hcontent⟩ := hwritten.exists_content hfile
  rw [FileTree.kind?_eq_file_iff, ← h.2, hcontent]
  exact ⟨(reaches_manifest_iff (hleads.grow hwritten.grows)).mpr h.1, rfl⟩

/-- The nearest manifest stays the nearest one, unless a file is written where a nearer directory
has its manifest. -/
theorem IsNearest.written (h : IsNearest before directories nearer project)
    (hwritten : Written files before after)
    (hspares : project.Spares files)
    (hleads : ∀ directory ∈ directories, before.Leads [] directory.segments)
    (hclear : ∀ directory ∈ nearer, ∀ file ∈ files, ¬ file.StandsAsManifest directory) :
    IsNearest after directories nearer project := by
  refine ⟨h.order, ?_, hwritten.holds h.manifest (hspares _ (by simp [Located.sources]))⟩
  intro directory hdirectory hafter
  obtain ⟨further, horder⟩ := h.order
  have hlead : before.Leads [] directory.segments := by
    refine hleads directory ?_
    rw [horder]
    exact List.mem_append_left _ hdirectory
  obtain ⟨file, hfile, hstands, -⟩ :=
    exists_standsAsManifest hwritten hlead (h.noManifest directory hdirectory) hafter
  exact hclear directory hdirectory file hfile hstands

/-- Where a list is split before an element, and again before an element that comes earlier, the
latter is in the first part. -/
theorem mem_of_split {α : Type} {first first' rest rest' : List α} {x x' z : α}
    (h : first ++ x :: rest = first' ++ x' :: rest')
    (hz : z ∈ first) (hz' : z ∉ first') : x' ∈ first := by
  rcases List.append_eq_append_iff.mp h with ⟨between, rfl, -⟩ | ⟨between, rfl, hrest⟩
  · exact absurd (List.mem_append_left between hz) hz'
  · cases between with
    | nil => simp [hz'] at hz
    | cons y between =>
      obtain ⟨rfl, -⟩ := List.cons.inj hrest
      simp

/-- A file that is no manifest, written where a nearer directory has its manifest, leaves no project
to be found. -/
theorem not_isNearest_of_standsAsManifest (h : IsNearest before directories nearer project)
    (hwritten : Written files before after)
    (hleads : ∀ directory ∈ directories, before.Leads [] directory.segments)
    (hparse : ∀ file ∈ files, Manifest.parse file.text = none) (hdirectory : directory ∈ nearer)
    (hfile : file ∈ files)
    (hstands : file.StandsAsManifest directory) (nearer' : List Path) (project' : Located) :
    ¬ IsNearest after directories nearer' project' := by
  rintro ⟨⟨further', horder'⟩, hnone', text, hread, hmanifest⟩
  obtain ⟨further, horder⟩ := h.order
  have hlead : ∀ directory ∈ nearer, before.Leads [] directory.segments := by
    intro directory hdirectory
    refine hleads directory ?_
    rw [horder]
    exact List.mem_append_left _ hdirectory
  have hskipped : directory ∉ nearer' := by
    intro hmem
    exact hnone' directory hmem (hstands.kind? hfile hwritten (hlead directory hdirectory))
  have hnearer : project'.root ∈ nearer :=
    mem_of_split (horder.symm.trans horder') hdirectory hskipped
  have hfound : after.Holds (project'.root / Manifest.fileName) fun _ => True :=
    ⟨text, hread, trivial⟩
  obtain ⟨other, hother, -, hcontent⟩ :=
    exists_standsAsManifest hwritten (hlead _ hnearer) (h.noManifest _ hnearer) hfound.kind?
  have htext : text = other.text := by
    rw [(FileTree.read_eq_ok_iff.mp hread).2] at hcontent
    exact String.toByteArray_inj.mp (Option.some.inj hcontent)
  rw [htext, hparse other hother] at hmanifest
  cases hmanifest

end Writing

/-! ## Checks -/

/-- A check succeeds exactly where a project is found and all files of its units can be read as they
are to be. -/
theorem check_ok_iff {i : Invocation} (hcommand : i.command = .generate true) {here : Path} :
    ((i.program here).run t).result = .ok () ↔
      ∃ nearer project units, IsNearest t (here :: here.parents) nearer project ∧
        Derives t project units ∧
        ∀ file ∈ units.map project.fileOf, t.read file.path = .ok file.text := by
  rw [program_of_check hcommand]
  constructor
  · intro hresult
    obtain ⟨project, middle, hfind, hcheck⟩ := bind_ends_ok_iff.mp ⟨hresult, rfl⟩
    obtain ⟨⟨nearer, hnearest⟩, rfl⟩ := findIn_ends_ok_iff.mp hfind
    obtain ⟨⟨units, hderives, hread⟩, -⟩ := checkGenerated_ends_ok_iff.mp hcheck
    exact ⟨nearer, project, units, hnearest, hderives, hread⟩
  · rintro ⟨nearer, project, units, hnearest, hderives, hread⟩
    have hfind : (find here).Ends t (.ok project) t :=
      findIn_ends_ok_iff.mpr ⟨⟨nearer, hnearest⟩, rfl⟩
    have hcheck : (checkGenerated project).Ends t (.ok ()) t :=
      checkGenerated_ends_ok_iff.mpr ⟨⟨units, hderives, hread⟩, rfl⟩
    exact (bind_ends_ok_iff.mpr ⟨project, t, hfind, hcheck⟩).1

/-- A check of a project that is found, with units that follow from its catalogs, compares the files
of these units. -/
theorem check_ok_iff_read {i : Invocation} (hcommand : i.command = .generate true) {here : Path}
    {nearer : List Path}
    {project : Located} {units : List SourceUnit}
    (hnearest : IsNearest t (here :: here.parents) nearer project)
    (hderives : Derives t project units) :
    ((i.program here).run t).result = .ok () ↔ ∀ file ∈ units.map project.fileOf, t.read file.path =
        .ok file.text := by
  rw [check_ok_iff hcommand]
  constructor
  · rintro ⟨nearer', project', units', hnearest', hderives', hread⟩
    obtain rfl := hnearest.unique hnearest'
    obtain rfl := hderives.unique hderives'
    exact hread
  · intro hread
    exact ⟨nearer, project, units, hnearest, hderives, hread⟩

end Project

open Project

/-- **A check right after a run that has spared its sources succeeds exactly where no unit is the
manifest of a nearer directory and no two units have one file.**  Trees have no links, so two paths
have one file exactly if they lead to one location. -/
theorem check_after_generate_iff {i j : Invocation} {here : Path}
    (hgenerate : i.command = .generate false)
    (hcheck : j.command = .generate true) (hhere : t.kind? here = some .directory)
    (hends : (i.program here).Ends t (.ok ()) after) :
    ∃ nearer project units, IsNearest t (here :: here.parents) nearer project ∧
      Derives t project units ∧
      (project.Spares (units.map project.fileOf) →
        (((j.program here).run after).result = .ok () ↔
          (∀ directory ∈ nearer, ∀ u ∈ units, ¬ (project.fileOf u).StandsAsManifest directory) ∧
          ∀ u ∈ units, ∀ u' ∈ units, (project.fileOf u).path.location =
              (project.fileOf u').path.location → u = u')) := by
  obtain ⟨nearer, project, units, hnearest, hderives, hwritten⟩ :=
    written_of_generate hgenerate hends
  refine ⟨nearer, project, units, hnearest, hderives, ?_⟩
  intro hspares
  have hleads : ∀ directory ∈ here :: here.parents, t.Leads [] directory.segments :=
      fun directory hdirectory =>
    (FileTree.leads_of_kind?_directory hhere).of_mem_parents hdirectory
  by_cases hclear : ∀ directory ∈ nearer, ∀ u ∈ units,
    ¬ (project.fileOf u).StandsAsManifest directory
  · -- the same project is found again, and its files are compared
    have hsame : IsNearest after (here :: here.parents) nearer project :=
      hnearest.written hwritten hspares hleads fun directory hdirectory =>
        List.forall_mem_map.mpr (hclear directory hdirectory)
    rw [check_ok_iff_read hcheck hsame (hderives.written hwritten hspares), and_iff_right hclear,
      hwritten.all_read_iff]
    exact hderives.texts_apart_iff
  · -- a unit is found in place of the manifest
    refine iff_of_false ?_ fun h => hclear h.1
    intro hok
    obtain ⟨nearer', project', -, hnearest', -⟩ := (check_ok_iff hcheck).mp hok
    push Not at hclear
    obtain ⟨directory, hdirectory, u, hu, hstands⟩ := hclear
    have hparse : ∀ file ∈ units.map project.fileOf, Manifest.parse file.text = none := by
      rw [List.forall_mem_map]
      intro u _
      rw [Located.fileOf_text]
      exact u.parse_render
    exact not_isNearest_of_standsAsManifest hnearest hwritten hleads hparse hdirectory
      (List.mem_map_of_mem hu) hstands nearer' project'
      hnearest'

/-- The check of generated units with its default log. -/
def sampleCheck : Invocation := ⟨.generate true, false, false⟩

/-- The run of the sample, whose template gives each unit a file of its own, spares the manifest and
both catalogs; so the check right after it succeeds. -/
theorem sample_check_after_generate :
    (sampleRun.program ⟨"/p"⟩).Ends (sampleTree moduleTemplate) (.ok ())
        (generatedTree moduleTemplate) ∧
      (sampleProject moduleTemplate).Spares
        ([bareUnit .clean, bareUnit .avx2].map (sampleProject moduleTemplate).fileOf) ∧
      ((sampleCheck.program ⟨"/p"⟩).run (generatedTree moduleTemplate)).result = .ok () := by
  have hends : (sampleRun.program ⟨"/p"⟩).Ends (sampleTree moduleTemplate) (.ok ())
      (generatedTree moduleTemplate) := ⟨by decide +kernel, rfl⟩
  have hhere : (sampleTree moduleTemplate).kind? ⟨"/p"⟩ = some .directory := by decide +kernel
  have hmanifest : (sampleTree moduleTemplate).kind? (Path.mk "/p" / Manifest.fileName) =
      some .file := by
    decide +kernel
  have hspares : (sampleProject moduleTemplate).Spares
      ([bareUnit .clean, bareUnit .avx2].map (sampleProject moduleTemplate).fileOf) := by
    unfold Located.Spares
    decide +kernel
  have hcheck : sampleCheck.command = .generate true := rfl
  obtain ⟨nearer, project, units, hnearest, hderives, hiff⟩ :=
    check_after_generate_iff rfl hcheck hhere hends
  obtain rfl := isNearest_sampleProject.unique hnearest
  obtain rfl := derives_bareUnit.unique hderives
  refine ⟨hends, hspares, (hiff hspares).mpr ⟨?_, by decide +kernel⟩⟩
  -- the directory of the project is the first one that is looked at
  obtain ⟨further, horder⟩ := hnearest.order
  cases nearer with
  | nil => simp
  | cons first rest =>
    obtain ⟨rfl, -⟩ := List.cons.inj horder
    exact absurd hmanifest (hnearest.noManifest _ List.mem_cons_self)

/-- A template without placeholders leads both units to one file, which is neither the manifest nor
a catalog.  The run succeeds, and the check right after it finds one of the two units out of
date. -/
theorem one_file_for_two_units_fails_check :
    ((sampleRun.program ⟨"/p"⟩).run (sampleTree "unit.rs")).result = .ok () ∧
      (generatedTree "unit.rs").kind? ⟨"/p/out/unit.rs"⟩ = some .file ∧
      (∀ name ∈ ["wrapgen.toml", "api", "sets"],
        (generatedTree "unit.rs").root.contentAt? ["p", name] =
          (sampleTree "unit.rs").root.contentAt? ["p", name]) ∧
      ((sampleCheck.program ⟨"/p"⟩).run (generatedTree "unit.rs")).result =
        .error (.outOfDate 1 2) := by
  decide +kernel

end Bindery
