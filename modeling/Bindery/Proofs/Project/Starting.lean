/-
# Bindery.Proofs.Project.Starting -- what starting a project changes.

A project is started in a directory that may have to be made first.  Each of its three files is
written only where nothing was seen before, and what is there is kept.  The directory of the
catalogs is made below one that is there by then, so for them nothing seen means nothing there.

For the manifest it does not.  It is looked for before the directory is made, and a path that goes
back by two dots leads nowhere as long as something on its way is missing.  Making directories makes
what is missing, and the same path leads to a directory that may have been there all the time, with
its manifest.  So starting a project spares every file unless its path passes something missing and
goes back; then a manifest can be replaced, and one of the new directories can take the place of a
catalog.
-/
import Bindery.Project.Scaffold
import Bindery.Proofs.Files.Making
import Bindery.Proofs.Project.Checking

namespace Bindery

/-! ## Trees -/

namespace FileTree

variable {t before middle after : FileTree} {p : Path} {name : String}

/-- **`t.PassesMissing p`** -- the path goes back by two dots, and something on its way is missing.
-/
def PassesMissing (t : FileTree) (p : Path) : Prop :=
  ".." ∈ p.segments ∧ t.enter p.segments = .error .notFound

/-- **`before.Keeps after`** -- every directory and every file of the first tree is one of the
second, with the same content. -/
structure Keeps (before after : FileTree) : Prop where
  directories : before.Grows after
  files : ∀ location content, before.root.contentAt? location = some content →
    after.root.contentAt? location = some content

theorem Keeps.refl (t : FileTree) : t.Keeps t :=
  ⟨.refl t, fun _ _ h => h⟩

theorem Keeps.trans (first : before.Keeps middle) (second : middle.Keeps after) :
    before.Keeps after :=
  ⟨first.directories.trans second.directories, fun location content h =>
    second.files location content (first.files location content h)⟩

theorem KeepsFiles.keeps (h : before.KeepsFiles after) : before.Keeps after :=
  ⟨h.directories, fun location _ hcontent => (h.files location).trans hcontent⟩

/-- What stands goes on standing. -/
theorem Keeps.stands (h : before.Keeps after) {location : Location}
    (hstands : before.Stands location) : after.Stands location := by
  rcases hstands with hdirectory | hfile
  · exact Or.inl (h.directories location hdirectory)
  · obtain ⟨content, hcontent⟩ := Option.isSome_iff_exists.mp hfile
    exact Or.inr (Option.isSome_iff_exists.mpr ⟨content, h.files location content hcontent⟩)

/-- What is read goes on being read. -/
theorem Keeps.read (h : before.Keeps after) {text : String} (hread : before.read p = .ok text) :
    after.read p = .ok text := by
  obtain ⟨hreaches, hcontent⟩ := read_eq_ok_iff.mp hread
  exact read_eq_ok_iff.mpr ⟨hreaches.grow h.directories, h.files _ _ hcontent⟩

/-- What is seen under a name goes on being seen. -/
theorem Keeps.isSome_kind? (h : before.Keeps after) (hdots : isDots p.lastSegment = false)
    (hkind : (before.kind? p).isSome) :
    (after.kind? p).isSome := by
  obtain ⟨hreaches, hstands⟩ := (isSome_kind?_iff hdots).mp hkind
  exact (isSome_kind?_iff hdots).mpr ⟨hreaches.grow h.directories, h.stands hstands⟩

/-- A write where no file stands keeps everything. -/
theorem write_keeps {content : ByteArray} (h : t.write p content = .ok after)
    (hfree : t.root.contentAt? p.location = none) :
    t.Keeps after := by
  obtain ⟨-, hgrows, hcontent⟩ := write_effect h
  refine ⟨hgrows, fun location old hold => ?_⟩
  rw [hcontent, if_neg, hold]
  rintro rfl
  rw [hfree] at hold
  cases hold

/-- A text that has been written is read. -/
theorem read_of_write {text : String} (h : t.write p text.toUTF8 = .ok after) :
    after.read p = .ok text := by
  obtain ⟨hreaches, hgrows, hcontent⟩ := write_effect h
  exact read_eq_ok_iff.mpr ⟨hreaches.grow hgrows, by rw [hcontent, if_pos rfl]⟩

/-- A file that is read is seen. -/
theorem isSome_kind?_of_read {text : String} (h : t.read p = .ok text) : (t.kind? p).isSome := by
  obtain ⟨hreaches, hcontent⟩ := read_eq_ok_iff.mp h
  rw [kind?_eq_file_iff.mpr ⟨hreaches, by rw [hcontent]; rfl⟩]
  rfl

/-- Unless a path passes something missing and goes back, nothing is missing on the way to what
stands below it. -/
theorem enter_ne_notFound_of_stands (hname : IsEntry name) (h : t.Stands (p / name).location)
    (hpasses : ¬ t.PassesMissing p) :
    t.enter p.segments ≠ .error .notFound := by
  rw [location_join hname] at h
  exact fun hmissing => enter_ne_notFound (fun hup => hpasses ⟨hup, hmissing⟩)
    (h.isSome_above (List.cons_ne_nil _ _)) hmissing

end FileTree

namespace Project

open Program FileTree

variable {t after middle : FileTree} {root path outer : Path} {text name : String}
  {result : Except Failure Unit}

/-! ## Writing a file -/

/-- However a write ends, it has written or changed nothing. -/
theorem writeFile_ends (h : (writeFile path text).Ends t result after) :
    result = .ok () ∧ t.write path text.toUTF8 = .ok after ∨ (∃ e, result = .error e) ∧
        after = t := by
  cases hwrite : t.write path text.toUTF8 with
  | ok next =>
    rw [writeFile, bind_ends_iff_of_ok (writeText_ends_ok_iff.mpr hwrite), orFail_ends_iff] at h
    obtain ⟨rfl, rfl⟩ := h
    exact Or.inl ⟨rfl, rfl⟩
  | error e =>
    have hfails : (writeText path text : Action _).Ends t (.ok (.error e)) t := by
      rw [Ends, writeText, Program.run, hwrite]
      exact ⟨rfl, rfl⟩
    rw [writeFile, bind_ends_iff_of_ok hfails, orFail_ends_iff] at h
    obtain ⟨rfl, rfl⟩ := h
    exact Or.inr ⟨⟨_, rfl⟩, rfl⟩

/-- Making directories always gives an answer. -/
theorem makeDirectories_ends {result : Except Failure (Except FileError Unit)}
    (h : (makeDirectories path).Ends t result after) :
    ∃ made, result = .ok made := by
  cases result with
  | ok made => exact ⟨made, rfl⟩
  | error e => exact ((makeDirectories_within path).failure_of_ends (P := fun _ => False) h).elim

/-- Making room makes the directories of the path above. -/
theorem makeRoom_ends {failure : Path → FileError → Failure} (hparent : path.parent? = some outer)
    (h : (makeRoom path failure).Ends t result after) :
    ∃ made, (makeDirectories outer : Action _).Ends t (.ok made) after ∧
        (result = .ok () → made = .ok ()) := by
  rw [makeRoom, hparent] at h
  rcases bind_ends_cases h with ⟨e, hmade, -⟩ | ⟨made, middle, hmade, hfail⟩
  · obtain ⟨made, hcontra⟩ := makeDirectories_ends hmade
    cases hcontra
  · obtain ⟨rfl, rfl⟩ := orFail_ends_iff.mp hfail
    refine ⟨made, hmade, fun hok => ?_⟩
    cases made with
    | ok _ => rfl
    | error e => cases hok

/-! ## Catalogs -/

/-- **`Provides root name text t result after`** -- providing a starter catalog keeps all files and
adds at most the catalog and its directory; after success something is seen at its path, and the
starter text is read there if nothing stood there before. -/
structure Provides (root : Path) (name text : String) (t : FileTree) (result : Except Failure Unit)
    (after : FileTree) : Prop where
  keeps : t.Keeps after
  adds : AddsAt (fun location => location = root.location ++ ["scripts"] ∨
    location = root.location ++ ["scripts", name]) t after
  seen : result = .ok () → (after.kind? (root / "scripts" / name)).isSome
  starter : result = .ok () → ¬ t.Stands (root / "scripts" / name).location →
    after.read (root / "scripts" / name) = .ok text

theorem isEntry_fileName : IsEntry Manifest.fileName :=
  ⟨isName_fileName, by decide, by decide⟩

theorem isEntry_scripts : IsEntry "scripts" :=
  ⟨⟨by decide, by decide⟩, by decide, by decide⟩

/-- Where a catalog is. -/
theorem location_catalog (hname : IsEntry name) :
    (root / "scripts" / name).location = root.location ++ ["scripts", name] := by
  rw [location_join hname, location_join isEntry_scripts, List.append_assoc]
  rfl

/-- A catalog that stands below a directory is seen, unless the text of its path is refused. -/
theorem isSome_kind?_catalog (hroot : t.Leads [] root.segments) (hname : IsEntry name)
    (htext : checkText (root / "scripts" / name) = .ok ())
    (h : t.Stands (root / "scripts" / name).location) :
    (t.kind? (root / "scripts" / name)).isSome := by
  have habove : (t.root.directoryAt? (root.location ++ ["scripts"])).isSome := by
    rw [location_catalog hname, List.append_cons] at h
    exact h.isSome_above (List.cons_ne_nil _ _)
  have hleads := (leads_join_iff hroot isEntry_scripts).mpr habove
  exact (isSome_kind?_iff hname.isDots_join).mpr
    ⟨(reaches_join_iff hleads hname.isName hname.dots hname.length).mpr htext, h⟩

/-- The directory of the catalogs is made below the one of the project, and nothing else is. -/
theorem makeRoom_catalog (hroot : t.Leads [] root.segments) (hname : IsEntry name)
    {failure : Path → FileError → Failure}
    (h : (makeRoom (root / "scripts" / name) failure).Ends t result after) :
    t.KeepsFiles after ∧ AddsAt (· = root.location ++ ["scripts"]) t after := by
  have hlast : (root / "scripts").lastSegment = "scripts" :=
    Path.lastSegment_join _ isEntry_scripts.isName
  obtain ⟨outer, houter, hsegments⟩ :=
    Path.exists_parent?_join (by rw [hlast]; exact isEntry_scripts.isNamed)
      hname.isName hname.isNamed
  obtain ⟨made, hmade, -⟩ := makeRoom_ends houter h
  have hlocation : outer.location = root.location ++ ["scripts"] := by
    rw [← location_join isEntry_scripts, Path.location, hsegments]
    rfl
  have hplace : ∃ place, t.enter (closedSegments outer).dropLast = .ok place := by
    have houterLast : outer.lastSegment ≠ "" := by
      rw [Path.lastSegment, hsegments]
      exact ne_of_eq_of_ne hlast (by decide)
    obtain ⟨base, hprefix, hbase⟩ := root.exists_segments_join isEntry_scripts.isName
    rw [closedSegments_eq houterLast]
    refine enter_dropLast_iff.mpr ?_
    rw [hsegments, hbase, List.dropLast_concat]
    exact hroot.of_prefix hprefix
  obtain ⟨place, hplace⟩ := hplace
  refine ⟨makeDirectories_keepsFiles hmade, ?_⟩
  rw [← hlocation]
  exact makeDirectories_adds_of_enter hplace hmade

/-- **A starter catalog is provided without harm**, however that ends. -/
theorem provide_ends (hroot : t.Leads [] root.segments) (hname : IsEntry name)
    (h : (provide (root / "scripts" / name) text).Ends t result after) :
    Provides root name text t result after := by
  rw [provide, bind_ends_iff_of_ok (kindOf_ends_iff.mpr ⟨rfl, rfl⟩)] at h
  split at h
  · rename_i hkind
    obtain ⟨rfl, rfl⟩ := report_ends_iff.mp h
    have hstands := ((isSome_kind?_iff hname.isDots_join).mp hkind).2
    exact ⟨.refl _, .refl _, fun _ => hkind, fun _ hfree => absurd hstands hfree⟩
  · rename_i hkind
    have hmay : ∀ {location}, location = root.location ++ ["scripts"] →
        location = root.location ++ ["scripts"] ∨ location = root.location ++ ["scripts", name] :=
          Or.inl
    rcases bind_ends_cases h with ⟨e, hroom, rfl⟩ | ⟨_, room, hroom, hwrite⟩
    · obtain ⟨hkeeps, hadds⟩ := makeRoom_catalog hroot hname hroom
      exact ⟨hkeeps.keeps, fun location hstands => (hadds location hstands).imp_right hmay, nofun,
        nofun⟩
    · obtain ⟨hkeeps, hadds⟩ := makeRoom_catalog hroot hname hroom
      rcases writeFile_ends hwrite with ⟨-, hwrite⟩ | ⟨⟨e, rfl⟩, rfl⟩
      · -- the path can be written, so what stands there would have been seen
        have hfree : room.root.contentAt? (root / "scripts" / name).location = none := by
          rw [hkeeps.files, ← Option.not_isSome_iff_eq_none]
          exact fun hfile => hkind (isSome_kind?_catalog hroot hname (write_effect hwrite).1.text
            (Or.inr hfile))
        have hread := read_of_write hwrite
        refine ⟨hkeeps.keeps.trans (write_keeps hwrite hfree), ?_, fun _ =>
          isSome_kind?_of_read hread, fun _ _ => hread⟩
        intro location hstands
        rcases write_adds hwrite location hstands with hroom | hcatalog
        · exact (hadds location hroom).imp_right hmay
        · exact Or.inr (Or.inr (hcatalog.trans (location_catalog hname)))
      · exact ⟨hkeeps.keeps, fun location hstands => (hadds location hstands).imp_right hmay, nofun,
          nofun⟩

/-- The names of the starter catalogs below their directory, and their texts. -/
def starterCatalogs : List (String × String) :=
  [("ffi_api.json", Starter.functionsText), ("parameter_sets.json", Starter.parametersText)]

theorem isEntry_functions : IsEntry "ffi_api.json" :=
  ⟨⟨by decide, by decide⟩, by decide, by decide⟩

theorem isEntry_parameters : IsEntry "parameter_sets.json" :=
  ⟨⟨by decide, by decide⟩, by decide, by decide⟩

theorem isEntry_starterCatalogs : ∀ catalog ∈ starterCatalogs, IsEntry catalog.1 :=
  List.forall_mem_cons.mpr ⟨isEntry_functions, List.forall_mem_singleton.mpr isEntry_parameters⟩

/-- The paths of the starter catalogs. -/
theorem starter_paths (root : Path) :
    Starter.manifest.functionsPath root = root / "scripts" / "ffi_api.json" ∧
    Starter.manifest.parametersPath root = root / "scripts" / "parameter_sets.json" := by
  have hfunctions : Starter.manifest.catalog.functions = "scripts" ++ "/" ++
    "ffi_api.json" := by decide +kernel
  have hparameters : Starter.manifest.catalog.parameters = "scripts" ++ "/" ++
    "parameter_sets.json" := by decide +kernel
  rw [Manifest.functionsPath, Manifest.parametersPath, hfunctions, hparameters]
  exact ⟨Path.join_join isEntry_scripts.isName (by decide),
    Path.join_join isEntry_scripts.isName (by decide)⟩

/-- **`ProvidesAll root t result after`** -- both starter catalogs have been provided. -/
structure ProvidesAll (root : Path) (t : FileTree) (result : Except Failure Unit)
    (after : FileTree) : Prop where
  keeps : t.Keeps after
  seen : result = .ok () → ∀ catalog ∈ starterCatalogs,
    (after.kind? (root / "scripts" / catalog.1)).isSome
  starter : result = .ok () → ∀ catalog ∈ starterCatalogs,
    ¬ t.Stands (root / "scripts" / catalog.1).location →
    after.read (root / "scripts" / catalog.1) = .ok catalog.2

/-- One catalog after the other. -/
theorem providesAll {first : Except Failure Unit}
    (hfunctions : Provides root "ffi_api.json" Starter.functionsText t first middle)
    (hrest : first = .ok () ∧ Provides root "parameter_sets.json" Starter.parametersText middle
    result after ∨
      (∃ e, result = .error e) ∧ after = middle) : ProvidesAll root t result after := by
  rcases hrest with ⟨rfl, hparameters⟩ | ⟨⟨e, rfl⟩, rfl⟩
  · refine ⟨hfunctions.keeps.trans hparameters.keeps, fun hok => ?_, fun hok => ?_⟩
    · exact List.forall_mem_cons.mpr ⟨hparameters.keeps.isSome_kind? isEntry_functions.isDots_join
        (hfunctions.seen rfl), List.forall_mem_singleton.mpr (hparameters.seen hok)⟩
    · refine List.forall_mem_cons.mpr ⟨fun hfree =>
        hparameters.keeps.read (hfunctions.starter rfl hfree),
          List.forall_mem_singleton.mpr fun hfree => hparameters.starter hok ?_⟩
      -- the first catalog stands under another name than the second
      intro hstands
      rw [location_catalog isEntry_parameters] at hstands hfree
      rcases hfunctions.adds _ hstands with hold | hscripts | hcatalog
      · exact hfree hold
      · simp at hscripts
      · simp at hcatalog
  · exact ⟨hfunctions.keeps, nofun, nofun⟩

/-! ## Courses -/

/-- **`Course root t result after`** -- what starting a project comes to. -/
inductive Course (root : Path) (t : FileTree) (result : Except Failure Unit) (after : FileTree) :
    Prop
  /-- A manifest is seen, and nothing is done. -/
  | refused : (t.kind? (root / Manifest.fileName)).isSome →
      result = .error (.manifestExists (root / Manifest.fileName)) → after = t →
      Course root t result after
  /-- Directories are made at most. -/
  | stopped {made : Except FileError Unit} : (makeDirectories root : Action _).Ends t (.ok made)
      after → (∃ e, result = .error e) →
      Course root t result after
  /-- The manifest is written, and then the catalogs are provided. -/
  | written {room written : FileTree} : ¬ (t.kind? (root / Manifest.fileName)).isSome →
      (makeDirectories root : Action _).Ends t (.ok (.ok ())) room →
      room.write (root / Manifest.fileName) Starter.manifestText.toUTF8 = .ok written →
        ProvidesAll root written result after →
      Course root t result after

/-- A manifest that is seen is refused. -/
theorem start_ends_of_isSome (h : (t.kind? (root / Manifest.fileName)).isSome) :
    (start root).Ends t (.error (.manifestExists (root / Manifest.fileName))) t := by
  rw [start, bind_ends_iff_of_ok (kindOf_ends_iff.mpr ⟨rfl, rfl⟩), if_pos h]
  exact fail_ends_iff.mpr ⟨rfl, rfl⟩

/-- What follows a written manifest provides the catalogs. -/
theorem providesAll_of_ends (hroot : t.Leads [] root.segments) {output : Action Unit}
    (houtput : ∀ {t result after}, output.Ends t result after → result = .ok () ∧ after = t)
    (h : (do
      provide (Starter.manifest.functionsPath root) Starter.functionsText
      provide (Starter.manifest.parametersPath root) Starter.parametersText
      output).Ends t result after) : ProvidesAll root t result after := by
  rw [(starter_paths root).1, (starter_paths root).2] at h
  rcases bind_ends_cases h with ⟨e, hfunctions, rfl⟩ | ⟨_, middle, hfunctions, h⟩
  · exact providesAll (provide_ends hroot isEntry_functions hfunctions) (Or.inr ⟨⟨e, rfl⟩, rfl⟩)
  · have hprovided := provide_ends hroot isEntry_functions hfunctions
    have hmiddle : middle.Leads [] root.segments := hroot.grow hprovided.keeps.directories
    rcases bind_ends_cases h with ⟨e, hparameters, rfl⟩ | ⟨_, last, hparameters, h⟩
    · exact providesAll hprovided
        (Or.inl ⟨rfl, provide_ends hmiddle isEntry_parameters hparameters⟩)
    · obtain ⟨rfl, rfl⟩ := houtput h
      exact providesAll hprovided
        (Or.inl ⟨rfl, provide_ends hmiddle isEntry_parameters hparameters⟩)

/-- However starting a project ends, it has taken one of the courses. -/
theorem start_course (h : (start root).Ends t result after) : Course root t result after := by
  rw [start, bind_ends_iff_of_ok (kindOf_ends_iff.mpr ⟨rfl, rfl⟩)] at h
  split at h
  · rename_i hkind
    obtain ⟨rfl, rfl⟩ := fail_ends_iff.mp h
    exact .refused hkind rfl rfl
  · rename_i hkind
    rcases bind_ends_cases h with ⟨e, hmade, -⟩ | ⟨made, room, hmade, hmakes⟩
    · obtain ⟨made, hcontra⟩ := makeDirectories_ends hmade
      cases hcontra
    · rcases bind_ends_cases hmakes with ⟨e, hfail, rfl⟩ | ⟨_, same, hok, hwrites⟩
      · obtain ⟨-, rfl⟩ := orFail_ends_iff.mp hfail
        exact .stopped hmade ⟨e, rfl⟩
      · obtain ⟨rfl, rfl⟩ := orFail_ends_ok_iff.mp hok
        rcases bind_ends_cases hwrites with ⟨e, hwrite, rfl⟩ | ⟨_, written, hwrite, hprovides⟩
        · rcases writeFile_ends hwrite with ⟨hcontra, -⟩ | ⟨-, rfl⟩
          · cases hcontra
          · exact .stopped hmade ⟨e, rfl⟩
        · replace hwrite := writeFile_ends_ok_iff.mp hwrite
          refine .written hkind hmade hwrite (providesAll_of_ends ?_ ?_ hprovides)
          · exact (makeDirectories_leads hmade).grow (write_effect hwrite).2.1
          · intro t result after hsay
            simpa only [bind_ends_iff_of_ok (say_ends_iff.mpr ⟨rfl, rfl⟩), say_ends_iff] using hsay

/-- A manifest that stands where it is going to be written, and is not seen, is one whose path
passes something missing. -/
theorem passesMissing_of_written {room written : FileTree}
    (hunseen : ¬ (t.kind? (root / Manifest.fileName)).isSome)
    (hmade : (makeDirectories root : Action _).Ends t (.ok (.ok ())) room)
    (hwrite : room.write (root / Manifest.fileName) Starter.manifestText.toUTF8 = .ok written)
    (hstands : t.Stands (root / Manifest.fileName).location) : t.PassesMissing root := by
  by_contra hpasses
  -- nothing has been made, so the write has reached a manifest that was to be seen
  have hentered := enter_ne_notFound_of_stands isEntry_fileName hstands hpasses
  obtain ⟨rfl, -⟩ := makeDirectories_of_enter hentered hmade
  exact hunseen ((isSome_kind?_iff isEntry_fileName.isDots_join).mpr
    ⟨(write_effect hwrite).1, hstands⟩)

/-- A manifest that stands is refused, with nothing changed, unless its path passes something
missing. -/
theorem Course.refused_of_stands (h : Course root t result after)
    (hstands : t.Stands (root / Manifest.fileName).location)
    (hpasses : ¬ t.PassesMissing root) : (∃ e, result = .error e) ∧ after = t := by
  cases h with
  | refused _ hresult hafter => exact ⟨⟨_, hresult⟩, hafter⟩
  | stopped hmade hfails =>
    have hentered := enter_ne_notFound_of_stands isEntry_fileName hstands hpasses
    exact ⟨hfails, (makeDirectories_of_enter hentered hmade).1⟩
  | written hunseen hmade hwrite _ =>
    exact absurd (passesMissing_of_written hunseen hmade hwrite hstands) hpasses

/-- Every directory stays, and every file but a manifest that is written over. -/
theorem Course.keeps (h : Course root t result after) : t.Grows after ∧
    ∀ location content, t.root.contentAt? location = some content → after.root.contentAt? location =
      some content ∨
      location = (root / Manifest.fileName).location ∧ after.root.contentAt? location =
        some Starter.manifestText.toUTF8 ∧
        t.PassesMissing root := by
  cases h with
  | refused _ _ hafter =>
    subst hafter
    exact ⟨.refl _, fun _ _ h => Or.inl h⟩
  | stopped hmade _ =>
    have hkeeps := (makeDirectories_keepsFiles hmade).keeps
    exact ⟨hkeeps.directories, fun location content h => Or.inl (hkeeps.files location content h)⟩
  | written hunseen hmade hwrite hprovides =>
    have hroom := (makeDirectories_keepsFiles hmade).keeps
    obtain ⟨-, hgrows, hcontent⟩ := write_effect hwrite
    refine ⟨(hroom.directories.trans hgrows).trans hprovides.keeps.directories,
      fun location content hold => ?_⟩
    by_cases hmanifest : location = (root / Manifest.fileName).location
    · have hstands : t.Stands (root / Manifest.fileName).location :=
        Or.inr (Option.isSome_iff_exists.mpr ⟨content, hmanifest ▸ hold⟩)
      refine Or.inr ⟨hmanifest, hprovides.keeps.files _ _ ?_,
        passesMissing_of_written hunseen hmade hwrite hstands⟩
      rw [hcontent, if_pos hmanifest]
    · refine Or.inl (hprovides.keeps.files _ _ ?_)
      rw [hcontent, if_neg hmanifest]
      exact hroom.files _ _ hold

/-- After success the manifest has its template. -/
theorem Course.read_manifest (h : Course root t (.ok ()) after) :
    after.read (root / Manifest.fileName) = .ok Starter.manifestText := by
  cases h with
  | refused _ hresult _ => cases hresult
  | stopped _ hfails =>
    obtain ⟨e, hresult⟩ := hfails
    cases hresult
  | written _ _ hwrite hprovides => exact hprovides.keeps.read (read_of_write hwrite)

/-- What stands in place of a catalog before it is provided has stood there from the start, unless
it is a directory on the way of a path that passes something missing. -/
theorem catalog_stands {room written : FileTree}
    (hmade : (makeDirectories root : Action _).Ends t (.ok (.ok ())) room)
    (hwrite : room.write (root / Manifest.fileName) Starter.manifestText.toUTF8 = .ok written)
    (hname : IsEntry name)
    (hstands : written.Stands (root / "scripts" / name).location)
    (hfree : ¬ t.Stands (root / "scripts" / name).location) :
    (room.root.directoryAt? (root / "scripts" / name).location).isSome ∧ t.PassesMissing root := by
  have hroom : room.Stands (root / "scripts" / name).location := by
    rcases write_adds hwrite _ hstands with hroom | hmanifest
    · exact hroom
    · rw [location_catalog hname, location_join isEntry_fileName] at hmanifest
      simp at hmanifest
  have hkeeps := makeDirectories_keepsFiles hmade
  refine ⟨?_, ?_, ?_⟩
  · rcases hroom with hdirectory | hfile
    · exact hdirectory
    · exact absurd (Or.inr (hkeeps.files _ ▸ hfile)) hfree
  · by_contra hup
    rcases (makeDirectories_adds_prefixes hup).tree_of_ends (P := fun _ => True) hmade _ hroom with
      hold | hprefix
    · exact hfree hold
    · -- a catalog lies below the directory of the project
      rw [location_catalog hname] at hprefix
      have hlength := hprefix.length_le
      rw [List.length_append] at hlength
      exact absurd hlength (by simp)
  · by_contra hentered
    obtain ⟨rfl, -⟩ := makeDirectories_of_enter hentered hmade
    exact hfree hroom

/-- After success something is seen in place of each catalog, and the starter text is read there
unless something stood there. -/
theorem Course.catalogs (h : Course root t (.ok ()) after) : ∀ catalog ∈ starterCatalogs,
    (after.kind? (root / "scripts" / catalog.1)).isSome ∧
      (t.Stands (root / "scripts" / catalog.1).location ∨
        after.read (root / "scripts" / catalog.1) = .ok catalog.2 ∨
        after.kind? (root / "scripts" / catalog.1) = some .directory ∧ t.PassesMissing root) := by
  intro catalog hcatalog
  have hname := isEntry_starterCatalogs catalog hcatalog
  cases h with
  | refused _ hresult _ => cases hresult
  | stopped _ hfails =>
    obtain ⟨e, hresult⟩ := hfails
    cases hresult
  | @written room written _ hmade hwrite hprovides =>
    have hseen := hprovides.seen rfl catalog hcatalog
    refine ⟨hseen, or_iff_not_imp_left.mpr fun hfree => ?_⟩
    by_cases hstands : written.Stands (root / "scripts" / catalog.1).location
    · obtain ⟨hdirectory, hpasses⟩ := catalog_stands hmade hwrite hname hstands hfree
      refine Or.inr ⟨?_, hpasses⟩
      replace hdirectory := hprovides.keeps.directories _ ((write_effect hwrite).2.1 _ hdirectory)
      obtain ⟨kind, hkind⟩ := Option.isSome_iff_exists.mp hseen
      cases kind with
      | directory => exact hkind
      | file =>
        have hfile := (kind?_eq_file_iff.mp hkind).2
        rw [Directory.contentAt?_of_isSome_directoryAt? hdirectory] at hfile
        cases hfile
    · exact Or.inl (hprovides.starter rfl catalog hcatalog hstands)

/-- The starter catalogs, by the paths that the manifest of the template gives them. -/
theorem starter_of_catalogs {Q : Path → String → Prop}
    (h : ∀ catalog ∈ starterCatalogs, Q (root / "scripts" / catalog.1) catalog.2) :
    Q (Starter.manifest.functionsPath root) Starter.functionsText ∧
        Q (Starter.manifest.parametersPath root) Starter.parametersText := by
  rw [(starter_paths root).1, (starter_paths root).2]
  exact ⟨h _ (List.mem_cons_self ..), h _ (List.mem_cons_of_mem _ (List.mem_singleton_self _))⟩

end Project

open Project

variable {t after : FileTree} {root : Path} {result : Except Failure Unit}

/-- **`CatalogProvided root t after path text`** -- after a project has been started, something is
seen at the path of a catalog: the starter text, unless something stood there before or the path of
the project passed something missing. -/
def CatalogProvided (root : Path) (t after : FileTree) (path : Path) (text : String) : Prop :=
  (after.kind? path).isSome ∧
    (t.Stands path.location ∨ after.read path = .ok text ∨ after.kind? path = some .directory ∧
    t.PassesMissing root)

/-- **Starting a project spares what is there**, however it ends, unless its path passes something
missing and goes back.  Every directory and every file stays, but for a manifest on such a path,
which gets the text of the template.  A manifest that stands is refused with nothing changed.  After
success the manifest has the template and both catalogs are provided, and starting a project in the
same directory again is refused with nothing changed. -/
theorem start_spares_files (hends : (start root).Ends t result after) :
    t.Grows after ∧
      (∀ location content, t.root.contentAt? location = some content →
        after.root.contentAt? location = some content ∨
        location = (root / Manifest.fileName).location ∧ after.root.contentAt? location =
          some Starter.manifestText.toUTF8 ∧
          t.PassesMissing root) ∧
      (t.Stands (root / Manifest.fileName).location → (∃ e, result = .error e) ∧ after = t ∨
        t.PassesMissing root) ∧
      (result = .ok () →
        after.read (root / Manifest.fileName) = .ok Starter.manifestText ∧
        CatalogProvided root t after (Starter.manifest.functionsPath root) Starter.functionsText ∧
        CatalogProvided root t after (Starter.manifest.parametersPath root) Starter.parametersText ∧
        (start root).Ends after (.error (.manifestExists (root / Manifest.fileName))) after ∧
        ∀ again result' left, again.location = root.location →
          (start again).Ends after result' left →
          (∃ e, result' = .error e) ∧ left = after ∨ after.PassesMissing again) := by
  have hcourse := start_course hends
  refine ⟨hcourse.keeps.1, hcourse.keeps.2, fun hstands => ?_, ?_⟩
  · exact or_iff_not_imp_right.mpr (hcourse.refused_of_stands hstands)
  · rintro rfl
    have hread := hcourse.read_manifest
    obtain ⟨hfunctions, hparameters⟩ :=
      starter_of_catalogs (Q := CatalogProvided root t after) hcourse.catalogs
    refine ⟨hread, hfunctions, hparameters,
      start_ends_of_isSome (FileTree.isSome_kind?_of_read hread), ?_⟩
    intro again result' left hsame hagain
    -- the manifest stands where it is looked for again
    have hstands : after.Stands (again / Manifest.fileName).location := by
      rw [FileTree.location_join isEntry_fileName, hsame, ← FileTree.location_join isEntry_fileName]
      exact Or.inr (by rw [(FileTree.read_eq_ok_iff.mp hread).2]; rfl)
    exact or_iff_not_imp_right.mpr ((start_course hagain).refused_of_stands hstands)

/-- A directory with a catalog and no manifest. -/
def halfStartedTree : FileTree :=
  ⟨[("p", .directory [("scripts", .directory [("ffi_api.json", .file "[]".toUTF8)])])]⟩

/-- The theorem at that directory: the catalog is kept, the other two files are new, and a second
start fails. -/
theorem half_started_project_is_completed :
    ∃ after, (start ⟨"/p"⟩).Ends halfStartedTree (.ok ()) after ∧
      after.root.contentAt? ["p", "scripts", "ffi_api.json"] = some "[]".toUTF8 ∧
      after.read ⟨"/p/wrapgen.toml"⟩ = .ok Starter.manifestText ∧
      after.read ⟨"/p/scripts/parameter_sets.json"⟩ = .ok Starter.parametersText ∧
      (start ⟨"/p"⟩).Ends after (.error (.manifestExists ⟨"/p/wrapgen.toml"⟩)) after := by
  have hends : (start ⟨"/p"⟩).Ends halfStartedTree (.ok ()) _ := ⟨by decide +kernel, rfl⟩
  obtain ⟨-, hkeeps, -, hdone⟩ := start_spares_files hends
  obtain ⟨hmanifest, -, ⟨-, hparameters⟩, hagain, -⟩ := hdone rfl
  refine ⟨_, hends, ?_, hmanifest, ?_, hagain⟩
  · rcases hkeeps ["p", "scripts", "ffi_api.json"] "[]".toUTF8 rfl with hkept | ⟨hmanifest, -⟩
    · exact hkept
    · exact absurd hmanifest (by decide +kernel)
  · rcases hparameters with hstands | hread | ⟨-, hup, -⟩
    · exact absurd hstands (by decide +kernel)
    · exact hread
    · exact absurd hup (by decide +kernel)

/-- A project with a manifest of its own, and nothing else. -/
def startedTree : FileTree :=
  ⟨[("x", .directory [("wrapgen.toml", .file "# mine\n".toUTF8)])]⟩

/-- A path that goes through a missing directory and back to the project gets past its manifest, and
the manifest is gone.  One that goes through what is to be a catalog makes a directory of it, and no
starter text is written. -/
theorem start_past_missing_directory_overwrites :
    let past := (start ⟨"/nope/../x"⟩).run startedTree
    let beside := (start ⟨"/a/scripts/ffi_api.json/../.."⟩).run startedTree
    past.result = .ok () ∧
      startedTree.root.contentAt? ["x", "wrapgen.toml"] = some "# mine\n".toUTF8 ∧
      past.tree.root.contentAt? ["x", "wrapgen.toml"] ≠ some "# mine\n".toUTF8 ∧
      beside.result = .ok () ∧
      ¬ startedTree.Stands ["a", "scripts", "ffi_api.json"] ∧
      beside.tree.kind? ⟨"/a/scripts/ffi_api.json"⟩ = some .directory := by
  decide +kernel

end Bindery
