/-
# Bindery.Proofs.Project.Writing -- what writing files leaves behind.

Files are written one after another.  So a location holds the text of the last file that leads
there, and where no file leads nothing has changed.  Afterwards all files can be read as they were
to be exactly where files that lead to one location have one text; this is what a check asks.
-/
import Bindery.Proofs.Project.Loading

namespace Bindery.Project

open Program

variable {t before middle after : FileTree} {files : List UnitFile} {file : UnitFile}

/-! ## Contents -/

/-- **`contentAfter files location before`** -- what a location that held `before` holds when files
have been written. -/
def UnitFile.contentAfter (files : List UnitFile) (location : Location)
    (before : Option ByteArray) : Option ByteArray :=
  files.foldl (fun content file => if location = file.path.location then some file.text.toUTF8 else
    content) before

namespace UnitFile

variable {location : Location} {content : Option ByteArray}

/-- Where no file leads, nothing changes. -/
theorem contentAfter_of_forall_ne (h : ∀ file ∈ files, file.path.location ≠ location) :
    contentAfter files location content = content := by
  induction files generalizing content with
  | nil => rfl
  | cons first rest ih =>
    obtain ⟨hfirst, hrest⟩ := List.forall_mem_cons.mp h
    rw [contentAfter, List.foldl_cons, if_neg hfirst.symm]
    exact ih hrest

/-- What is there was there before, or is the text of a file that leads there. -/
theorem contentAfter_cases (files : List UnitFile) (location : Location)
    (content : Option ByteArray) :
    (∀ file ∈ files, file.path.location ≠ location) ∧
    contentAfter files location content = content ∨
      ∃ file ∈ files, file.path.location = location ∧ contentAfter files location content =
          some file.text.toUTF8 := by
  induction files generalizing content with
  | nil => exact Or.inl ⟨by simp, rfl⟩
  | cons first rest ih =>
    by_cases hfirst : location = first.path.location
    · right
      rcases ih (some first.text.toUTF8) with ⟨-, hcontent⟩ | ⟨file, hfile, hlocation, hcontent⟩
      · exact ⟨first, List.mem_cons_self,
          hfirst.symm, by rw [contentAfter, List.foldl_cons, if_pos hfirst]; exact hcontent⟩
      · refine ⟨file, List.mem_cons_of_mem first hfile, hlocation, ?_⟩
        rw [contentAfter, List.foldl_cons, if_pos hfirst]
        exact hcontent
    · rcases ih content with ⟨hrest, hcontent⟩ | ⟨file, hfile, hlocation, hcontent⟩
      · left
        refine ⟨List.forall_mem_cons.mpr ⟨fun h => hfirst h.symm, hrest⟩, ?_⟩
        rw [contentAfter, List.foldl_cons, if_neg hfirst]
        exact hcontent
      · right
        refine ⟨file, List.mem_cons_of_mem first hfile, hlocation, ?_⟩
        rw [contentAfter, List.foldl_cons, if_neg hfirst]
        exact hcontent

end UnitFile

/-! ## Written files -/

/-- **`Written files before after`** -- the second tree is the first one after files have been
written: directories may be new, each path leads to a name, and contents are those that the files
leave. -/
structure Written (files : List UnitFile) (before after : FileTree) : Prop where
  grows : before.Grows after
  reaches : ∀ file ∈ files, after.Reaches file.path
  content : ∀ location,
    after.root.contentAt? location = UnitFile.contentAfter files location
      (before.root.contentAt? location)

namespace Written

/-- Where no file leads, nothing has changed. -/
theorem content_of_forall_ne (h : Written files before after) {location : Location}
    (hne : ∀ file ∈ files, file.path.location ≠ location) :
    after.root.contentAt? location = before.root.contentAt? location := by
  rw [h.content, UnitFile.contentAfter_of_forall_ne hne]

/-- A file's path leads to the text of some file that leads there. -/
theorem exists_content (h : Written files before after) (hfile : file ∈ files) :
    ∃ other ∈ files, other.path.location = file.path.location ∧
      after.root.contentAt? file.path.location = some other.text.toUTF8 := by
  rcases UnitFile.contentAfter_cases files file.path.location
    (before.root.contentAt? file.path.location) with
    ⟨hnone, -⟩ | ⟨other, hother, hlocation, hcontent⟩
  · exact absurd rfl (hnone file hfile)
  · exact ⟨other, hother, hlocation, (h.content _).trans hcontent⟩

/-- A file whose text is that of all files at its location is there with its text. -/
theorem content_of_same_text (h : Written files before after) (hfile : file ∈ files)
    (hsame : ∀ other ∈ files, other.path.location = file.path.location →
      other.text = file.text) :
    after.root.contentAt? file.path.location = some file.text.toUTF8 := by
  obtain ⟨other, hother, hlocation, hcontent⟩ := h.exists_content hfile
  rw [hcontent, hsame other hother hlocation]

/-- Every file is there. -/
theorem kind?_eq_file (h : Written files before after) (hfile : file ∈ files) :
    after.kind? file.path = some .file := by
  obtain ⟨other, -, -, hcontent⟩ := h.exists_content hfile
  exact FileTree.kind?_eq_file_iff.mpr ⟨h.reaches file hfile, by rw [hcontent]; rfl⟩

/-- **All files can be read as they were to be exactly where files at one location have one text.**
-/
theorem all_read_iff (h : Written files before after) :
    (∀ file ∈ files, after.read file.path = .ok file.text) ↔
      ∀ file ∈ files, ∀ other ∈ files, file.path.location = other.path.location →
          file.text = other.text := by
  constructor
  · intro hread file hfile other hother hlocation
    have hcontent := (FileTree.read_eq_ok_iff.mp (hread file hfile)).2
    have hcontent' := (FileTree.read_eq_ok_iff.mp (hread other hother)).2
    rw [hlocation, hcontent'] at hcontent
    exact (String.toByteArray_inj.mp (Option.some.inj hcontent)).symm
  · intro hsame file hfile
    have hcontent := h.content_of_same_text hfile fun other hother => hsame other hother file hfile
    exact FileTree.read_eq_ok_iff.mpr ⟨h.reaches file hfile, hcontent⟩

/-- Writing no files changes nothing. -/
theorem nil (t : FileTree) : Written [] t t :=
  ⟨.refl t, by simp, fun _ => rfl⟩

/-- One file after another: room is made, the file is written, and then the others are. -/
theorem cons {room written : FileTree} {rest : List UnitFile} (hroom : before.KeepsFiles room)
    (hwrite : room.write file.path file.text.toUTF8 = .ok written)
    (hrest : Written rest written after) :
    Written (file :: rest) before after := by
  obtain ⟨hreaches, hgrows, hcontent⟩ := FileTree.write_effect hwrite
  refine ⟨(hroom.directories.trans hgrows).trans hrest.grows, ?_, ?_⟩
  · exact List.forall_mem_cons.mpr ⟨(hreaches.grow hgrows).grow hrest.grows, hrest.reaches⟩
  · intro location
    rw [hrest.content, hcontent, hroom.files]
    rfl

end Written

/-! ## Writing -/

/-- Making room changes no file. -/
theorem makeRoom_within {P : Failure → Prop} {failure : Path → FileError → Failure} (path : Path)
    (h : ∀ directory e, P (failure directory e)) :
    (makeRoom path failure).Within FileTree.KeepsFiles P := by
  unfold makeRoom
  split
  · exact Within.bind (makeDirectories_within _) fun _ => orFail_within _ (h _)
  · exact pure_within _

theorem writeFile_ends_ok_iff {path : Path} {text : String} {u : Unit} :
    (writeFile path text).Ends t (.ok u) after ↔ t.write path text.toUTF8 = .ok after := by
  rw [writeFile, bind_ends_ok_iff]
  simp only [orFail_ends_ok_iff]
  constructor
  · rintro ⟨answer, middle, hends, rfl, rfl⟩
    exact writeText_ends_ok_iff.mp hends
  · intro hwrite
    exact ⟨_, after, writeText_ends_ok_iff.mpr hwrite, rfl, rfl⟩

/-- **Files that have been written are there.** -/
theorem writeAll_written (h : (writeAll files).Ends before (.ok ()) after) :
    Written files before after := by
  induction files generalizing before with
  | nil =>
    rw [writeAll, pure_ends_iff] at h
    rw [h.2]
    exact .nil before
  | cons file rest ih =>
    simp only [writeAll, bind_ends_ok_iff, writeFile_ends_ok_iff, report_ends_iff] at h
    obtain ⟨_, room, hroom, _, written, hwrite, _, _, ⟨-, rfl⟩, hrest⟩ := h
    have hkeeps : (makeRoom file.path .creating).Within FileTree.KeepsFiles fun _ => True :=
      makeRoom_within file.path fun _ _ => trivial
    exact .cons (hkeeps.tree_of_ends hroom) hwrite (ih hrest)

/-- Writing keeps directories, and it fails because a directory cannot be made or a file cannot be
written. -/
theorem writeAll_within (files : List UnitFile) :
    (writeAll files).Within FileTree.Grows fun f => f.precedesWriting = false := by
  induction files with
  | nil => exact pure_within _
  | cons file rest ih =>
    rw [writeAll]
    have hroom : (makeRoom file.path .creating).Within FileTree.KeepsFiles fun f =>
        f.precedesWriting = false :=
      makeRoom_within file.path fun _ _ => rfl
    have hwrite : (writeFile file.path file.text).Within FileTree.Grows fun f =>
        f.precedesWriting = false :=
      Within.bind (writeText_within _ _) fun _ => orFail_within _ fun _ => rfl
    exact (hroom.mono FileTree.KeepsFiles.directories id).bind fun _ => hwrite.bind fun _ =>
      Within.bind (report_within _ _) fun _ => ih

/-! ## Checking -/

/-- Whether a file is missing or differs from what it is to be. -/
def isStale (t : FileTree) (file : UnitFile) : Bool :=
  match t.read file.path with
  | .ok text => text != file.text
  | .error _ => true

theorem isStale_eq_false_iff : isStale t file = false ↔ t.read file.path = .ok file.text := by
  unfold isStale
  cases t.read file.path <;> simp

theorem staleAmong_ends_iff {result : Except Failure (List UnitFile)} :
    (staleAmong files).Ends t result after ↔ result = .ok (files.filter (isStale t)) ∧
        after = t := by
  suffices h : (staleAmong files).Ends t (.ok (files.filter (isStale t))) t from ends_iff h.1 h.2
  induction files with
  | nil => exact pure_ends_iff.mpr ⟨rfl, rfl⟩
  | cons file rest ih =>
    simp only [staleAmong, bind_ends_ok_iff, readText_ends_iff]
    refine ⟨_, t, ⟨rfl, rfl⟩, _, t, ih, pure_ends_iff.mpr ⟨?_, rfl⟩⟩
    rw [List.filter_cons]
    cases hread : t.read file.path with
    | error e => simp [isStale, hread]
    | ok text =>
      by_cases htext : text = file.text
      · simp [isStale, hread, htext]
      · simp [isStale, hread, htext]

/-- **A check succeeds exactly where all files can be read as they are to be.** -/
theorem checkGenerated_ends_ok_iff {project : Located} {u : Unit} :
    (checkGenerated project).Ends t (.ok u) after ↔
      (∃ units, Derives t project units ∧
        ∀ file ∈ units.map project.fileOf, t.read file.path = .ok file.text) ∧ after = t := by
  have hfresh : ∀ files : List UnitFile,
      (files.filter (isStale t)).isEmpty = true ↔ ∀ file ∈ files, t.read file.path =
          .ok file.text := by
    intro files
    rw [List.isEmpty_iff, List.filter_eq_nil_iff]
    simp only [Bool.not_eq_true, isStale_eq_false_iff]
  simp only [checkGenerated, bind_ends_ok_iff, unitFiles_ends_ok_iff, staleAmong_ends_iff,
    reportAll_ends_iff]
  constructor
  · rintro ⟨files, _, ⟨⟨units, hderives, rfl⟩, rfl⟩, stale, _, ⟨hstale, rfl⟩, _, _, ⟨-, rfl⟩, h⟩
    cases hstale
    split at h
    · rename_i hempty
      exact ⟨⟨units, hderives, (hfresh _).mp hempty⟩, (say_ends_iff.mp h).2⟩
    · cases (fail_ends_iff.mp h).1
  · rintro ⟨⟨units, hderives, hread⟩, rfl⟩
    refine ⟨_, after, ⟨⟨units, hderives, rfl⟩, rfl⟩, _, after, ⟨rfl, rfl⟩, (), after,
      ⟨trivial, rfl⟩, ?_⟩
    rw [if_pos ((hfresh _).mpr hread)]
    exact say_ends_iff.mpr ⟨rfl, rfl⟩

theorem checkGenerated_readOnly (project : Located) : (checkGenerated project).ReadOnly := by
  rw [checkGenerated]
  have hfiles : (unitFiles project).ReadOnly := (unitFiles_looks project).readOnly
  refine hfiles.bind fun files => Within.bind ?_ fun stale =>
    Within.bind (reportAll_within _) fun _ => ?_
  · exact within_of_ok fun t => ⟨_, staleAmong_ends_iff.mpr ⟨rfl, rfl⟩⟩
  · split
    · exact say_within _
    · exact fail_within trivial

end Bindery.Project
