/-
# Bindery.Proofs.Project.Loading -- what a tree holds of a project.

Finding a project and deriving its units is put in terms of the tree alone: which of the directories
has the nearest manifest, what the files at some paths hold, and which units follow from them.  Each
command that starts from a project begins with these steps; they change nothing, and they fail only
for reasons of their own.
-/
import Bindery.Project.Generation
import Bindery.Proofs.Files.Programs

namespace Bindery

variable {t before after : FileTree}

/-! ## What files hold -/

/-- **`t.Holds path p`** -- the file at a path can be read, and its text has a property. -/
def FileTree.Holds (t : FileTree) (path : Path) (p : String → Prop) : Prop :=
  ∃ text, t.read path = .ok text ∧ p text

/-- A path at which a file can be read leads to that file in every tree with more directories that
holds the file unchanged. -/
theorem FileTree.Holds.grow {path : Path} {p : String → Prop} (h : before.Holds path p)
    (hgrows : before.Grows after)
    (hsame : after.root.contentAt? path.location = before.root.contentAt? path.location) :
    after.Holds path p := by
  obtain ⟨text, hread, hp⟩ := h
  obtain ⟨hreaches, hcontent⟩ := FileTree.read_eq_ok_iff.mp hread
  exact ⟨text, FileTree.read_eq_ok_iff.mpr ⟨hreaches.grow hgrows, hsame.trans hcontent⟩, hp⟩

/-- Where a file can be read, a file stands. -/
theorem FileTree.Holds.kind? {path : Path} {p : String → Prop} (h : t.Holds path p) :
    t.kind? path = some .file := by
  obtain ⟨text, hread, -⟩ := h
  obtain ⟨hreaches, hcontent⟩ := FileTree.read_eq_ok_iff.mp hread
  exact FileTree.kind?_eq_file_iff.mpr ⟨hreaches, by rw [hcontent]; rfl⟩

/-- Whether a failure comes before the first change: the manifest, a catalog or the derivation of a
unit is what goes wrong. -/
def Failure.precedesWriting : Failure → Bool
  | .noManifest => true
  | .reading _ _ => true
  | .manifestRefused _ => true
  | .loading _ _ _ => true
  | .derivation _ => true
  | _ => false

namespace Project

open Program

/-- The program looks at a project: it changes nothing, and it fails only in ways that precede
writing. -/
abbrev Looks {α : Type} (p : Action α) : Prop :=
  p.Within Eq fun f => f.precedesWriting = true

theorem Looks.readOnly {α : Type} {p : Action α} (h : Looks p) : p.ReadOnly :=
  h.mono id fun _ => trivial

/-! ## The manifest -/

/-- **`IsNearest t directories nearer project`** -- among some directories, the project's is the
first with a manifest; the ones before it are `nearer`. -/
structure IsNearest (t : FileTree) (directories nearer : List Path) (project : Located) : Prop where
  order : ∃ further, directories = nearer ++ project.root :: further
  noManifest : ∀ directory ∈ nearer, t.kind? (directory / Manifest.fileName) ≠ some .file
  manifest : t.Holds (project.root / Manifest.fileName) fun text => Manifest.parse text =
    some project.manifest

/-- The manifest of a directory that has one. -/
def loadManifest (directory : Path) : Action Located := do
  let file := directory / Manifest.fileName
  let text ← orFail (.reading file) (← readText file)
  match Manifest.parse text with
  | none => fail (.manifestRefused file)
  | some manifest =>
    report .debug ("using manifest " ++ file.text)
    return ⟨directory, manifest⟩

theorem findIn_cons (directory : Path) (rest : List Path) : findIn (directory :: rest) = (do
    if (← kindOf (directory / Manifest.fileName)) = some .file then loadManifest directory else
        findIn rest) :=
  rfl

theorem loadManifest_ends_ok_iff {directory : Path} {project : Located} :
    (loadManifest directory).Ends t (.ok project) after ↔
      (project.root = directory ∧
        t.Holds (directory / Manifest.fileName) fun text => Manifest.parse text =
            some project.manifest) ∧ after = t := by
  rw [loadManifest, readText_orFail_ends_ok_iff]
  constructor
  · rintro ⟨text, hread, h⟩
    split at h
    · rw [fail_ends_iff] at h
      cases h.1
    · rename_i manifest hmanifest
      simp only [bind_ends_ok_iff, report_ends_iff, pure_ends_iff] at h
      obtain ⟨_, _, ⟨-, rfl⟩, hproject, rfl⟩ := h
      cases hproject
      exact ⟨⟨rfl, text, hread, hmanifest⟩, rfl⟩
  · rintro ⟨⟨rfl, text, hread, hmanifest⟩, rfl⟩
    refine ⟨text, hread, ?_⟩
    simp only [hmanifest, bind_ends_ok_iff, report_ends_iff, pure_ends_iff]
    exact ⟨(), after, ⟨trivial, rfl⟩, trivial, rfl⟩

theorem loadManifest_looks (directory : Path) : Looks (loadManifest directory) := by
  rw [loadManifest]
  refine Within.bind (readText_within _) fun _ => Within.bind (orFail_within _ fun _ => rfl) ?_
  intro text
  split
  · exact fail_within rfl
  · exact Within.bind (report_within _ _) fun _ => pure_within _

/-- **A search ends with the project of the nearest manifest.** -/
theorem findIn_ends_ok_iff {directories : List Path} {project : Located} :
    (findIn directories).Ends t (.ok project) after ↔
        (∃ nearer, IsNearest t directories nearer project) ∧ after = t := by
  induction directories with
  | nil =>
    rw [findIn, fail_ends_iff]
    constructor
    · rintro ⟨h, -⟩
      cases h
    · rintro ⟨⟨nearer, hnearest⟩, -⟩
      obtain ⟨further, horder⟩ := hnearest.order
      simp at horder
  | cons directory rest ih =>
    rw [findIn_cons, bind_ends_ok_iff]
    simp only [kindOf_ends_iff]
    constructor
    · rintro ⟨kind, middle, ⟨hkind, rfl⟩, h⟩
      cases hkind
      split at h
      · obtain ⟨⟨rfl, hholds⟩, rfl⟩ := loadManifest_ends_ok_iff.mp h
        exact ⟨⟨[], ⟨rest, rfl⟩, by simp, hholds⟩, rfl⟩
      · rename_i hnone
        obtain ⟨⟨nearer, ⟨further, rfl⟩, hnearer, hholds⟩, rfl⟩ := ih.mp h
        exact ⟨⟨directory :: nearer, ⟨further, rfl⟩, List.forall_mem_cons.mpr ⟨hnone, hnearer⟩,
          hholds⟩, rfl⟩
    · rintro ⟨⟨nearer, ⟨further, horder⟩, hnearer, hholds⟩, rfl⟩
      refine ⟨_, after, ⟨rfl, rfl⟩, ?_⟩
      cases nearer with
      | nil =>
        obtain ⟨rfl, rfl⟩ := List.cons.inj horder
        rw [if_pos hholds.kind?]
        exact loadManifest_ends_ok_iff.mpr ⟨⟨rfl, hholds⟩, rfl⟩
      | cons first nearer =>
        obtain ⟨rfl, rfl⟩ := List.cons.inj horder
        obtain ⟨hnone, hnearer⟩ := List.forall_mem_cons.mp hnearer
        rw [if_neg hnone]
        exact ih.mpr ⟨⟨nearer, ⟨further, rfl⟩, hnearer, hholds⟩, rfl⟩

/-- There is one nearest manifest at most. -/
theorem IsNearest.unique {directories nearer nearer' : List Path} {project project' : Located}
    (h : IsNearest t directories nearer project) (h' : IsNearest t directories nearer' project') :
    project = project' := by
  have hends : (findIn directories).Ends t (.ok project) t :=
    findIn_ends_ok_iff.mpr ⟨⟨nearer, h⟩, rfl⟩
  have hends' : (findIn directories).Ends t (.ok project') t :=
    findIn_ends_ok_iff.mpr ⟨⟨nearer', h'⟩, rfl⟩
  exact Except.ok.inj (hends.unique hends').1

theorem findIn_looks (directories : List Path) : Looks (findIn directories) := by
  induction directories with
  | nil => exact fail_within rfl
  | cons directory rest ih =>
    rw [findIn_cons]
    refine Within.bind (kindOf_within _) ?_
    intro kind
    split
    · exact loadManifest_looks directory
    · exact ih

/-! ## Catalogs -/

section Catalogs

variable {α : Type} (parse : String → Except CatalogError α) (path : Path) (loader : Loader)

theorem loadWith_ends_ok_iff {catalog : α} :
    (loadWith parse path loader).Ends t (.ok catalog) after ↔
      t.Holds path (fun text => parse text = .ok catalog) ∧ after = t := by
  rw [loadWith, readText_orFail_ends_ok_iff]
  simp only [orFail_ends_ok_iff, FileTree.Holds]
  constructor
  · rintro ⟨text, hread, hparse, rfl⟩
    exact ⟨⟨text, hread, hparse⟩, rfl⟩
  · rintro ⟨⟨text, hread, hparse⟩, rfl⟩
    exact ⟨text, hread, hparse, rfl⟩

theorem loadWith_looks : Looks (loadWith parse path loader) := by
  rw [loadWith]
  exact Within.bind (readText_within _) fun _ => Within.bind (orFail_within _ fun _ => rfl) fun _ =>
    orFail_within _ fun _ => rfl

end Catalogs

/-! ## Units -/

/-- The file of a unit, as it is to be. -/
def Located.fileOf (project : Located) (u : SourceUnit) : UnitFile :=
  ⟨project.manifest.unitPath project.root u.variant, u.render⟩

@[simp] theorem Located.fileOf_path (project : Located) (u : SourceUnit) :
    (project.fileOf u).path = project.manifest.unitPath project.root u.variant := by
  rw [fileOf]

@[simp] theorem Located.fileOf_text (project : Located) (u : SourceUnit) :
    (project.fileOf u).text = u.render := by
  rw [fileOf]

/-- **`Derives t project units`** -- the catalogs of a project are accepted, and these units follow
from them. -/
def Derives (t : FileTree) (project : Located) (units : List SourceUnit) : Prop :=
  ∃ functions parameters,
    t.Holds (project.manifest.functionsPath project.root) (fun text => FunctionCatalog.parse text =
      .ok functions) ∧
    t.Holds (project.manifest.parametersPath project.root) (fun text =>
      ParameterCatalog.parse text = .ok parameters) ∧
    functions.assembleAll parameters project.manifest.options = .ok units

theorem loadFunctions_ends_ok_iff {path : Path} {functions : FunctionCatalog} :
    (loadFunctions path).Ends t (.ok functions) after ↔
      t.Holds path (fun text => FunctionCatalog.parse text = .ok functions) ∧ after = t := by
  simp only [loadFunctions, bind_ends_ok_iff, loadWith_ends_ok_iff, report_ends_iff, pure_ends_iff]
  constructor
  · rintro ⟨catalog, _, ⟨hholds, rfl⟩, _, _, ⟨-, rfl⟩, hcatalog, rfl⟩
    cases hcatalog
    exact ⟨hholds, rfl⟩
  · rintro ⟨hholds, rfl⟩
    exact ⟨functions, after, ⟨hholds, rfl⟩, (), after, ⟨trivial, rfl⟩, rfl, rfl⟩

theorem loadParameters_ends_ok_iff {path : Path} {parameters : ParameterCatalog} :
    (loadParameters path).Ends t (.ok parameters) after ↔
      t.Holds path (fun text => ParameterCatalog.parse text = .ok parameters) ∧ after = t := by
  simp only [loadParameters, bind_ends_ok_iff, loadWith_ends_ok_iff, report_ends_iff, pure_ends_iff]
  constructor
  · rintro ⟨catalog, _, ⟨hholds, rfl⟩, _, _, ⟨-, rfl⟩, hcatalog, rfl⟩
    cases hcatalog
    exact ⟨hholds, rfl⟩
  · rintro ⟨hholds, rfl⟩
    exact ⟨parameters, after, ⟨hholds, rfl⟩, (), after, ⟨trivial, rfl⟩, rfl, rfl⟩

/-- **The files of a project's units are those that its catalogs give.** -/
theorem unitFiles_ends_ok_iff {project : Located} {files : List UnitFile} :
    (unitFiles project).Ends t (.ok files) after ↔
      (∃ units, Derives t project units ∧ files = units.map project.fileOf) ∧ after = t := by
  simp only [unitFiles, bind_ends_ok_iff, loadFunctions_ends_ok_iff, loadParameters_ends_ok_iff,
    report_ends_iff, reportAll_ends_iff, orFail_ends_ok_iff, pure_ends_iff]
  constructor
  · rintro ⟨functions, _, ⟨hfunctions, rfl⟩, parameters, _, ⟨hparameters, rfl⟩, _, _, ⟨-, rfl⟩,
      units, _, ⟨hunits, rfl⟩, _, _, ⟨-, rfl⟩, hfiles, rfl⟩
    exact ⟨⟨units, ⟨functions, parameters, hfunctions, hparameters, hunits⟩, Except.ok.inj hfiles⟩,
      rfl⟩
  · rintro ⟨⟨units, ⟨functions, parameters, hfunctions, hparameters, hunits⟩, rfl⟩, rfl⟩
    exact ⟨functions, after, ⟨hfunctions, rfl⟩, parameters, after, ⟨hparameters, rfl⟩, (), after,
      ⟨trivial, rfl⟩, units, after, ⟨hunits, rfl⟩, (), after, ⟨trivial, rfl⟩, rfl, rfl⟩

/-- The units that follow from the catalogs of a project are determined. -/
theorem Derives.unique {project : Located} {units units' : List SourceUnit}
    (h : Derives t project units) (h' : Derives t project units') : units = units' := by
  obtain ⟨functions, parameters, hfunctions, hparameters, hunits⟩ := h
  obtain ⟨functions', parameters', hfunctions', hparameters', hunits'⟩ := h'
  obtain rfl : functions = functions' := by
    have hends := loadFunctions_ends_ok_iff.mpr ⟨hfunctions, rfl⟩
    exact Except.ok.inj (hends.unique (loadFunctions_ends_ok_iff.mpr ⟨hfunctions', rfl⟩)).1
  obtain rfl : parameters = parameters' := by
    have hends := loadParameters_ends_ok_iff.mpr ⟨hparameters, rfl⟩
    exact Except.ok.inj (hends.unique (loadParameters_ends_ok_iff.mpr ⟨hparameters', rfl⟩)).1
  exact Except.ok.inj (hunits.symm.trans hunits')

theorem loadFunctions_looks (path : Path) : Looks (loadFunctions path) := by
  rw [loadFunctions]
  exact Within.bind (loadWith_looks _ _ _) fun _ =>
    Within.bind (report_within _ _) fun _ => pure_within _

theorem loadParameters_looks (path : Path) : Looks (loadParameters path) := by
  rw [loadParameters]
  exact Within.bind (loadWith_looks _ _ _) fun _ =>
    Within.bind (report_within _ _) fun _ => pure_within _

theorem unitFiles_looks (project : Located) : Looks (unitFiles project) := by
  rw [unitFiles]
  exact Within.bind (loadFunctions_looks _) fun _ => Within.bind (loadParameters_looks _) fun _ =>
    Within.bind (reportAll_within _) fun _ => Within.bind (orFail_within _ fun _ => rfl) fun _ =>
    Within.bind (report_within _ _) fun _ => pure_within _

end Project

end Bindery
