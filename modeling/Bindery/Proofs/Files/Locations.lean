/-
# Bindery.Proofs.Files.Locations -- where paths lead, and what operations on files change.

A tree has no links, so where a path leads is told by its text alone: a name goes down, two dots go
up, and everything else stays. What the tree decides is whether the way is there: each segment
before the last must lead to a directory.  Reading and looking are restated in these two terms, a
location and a way.  Operations only add directories, so a way that is there stays there, and a path
goes on leading where it has led; a write changes the one file where its path leads, and a new
directory changes none.
-/
import Bindery.Files.Tree
import Bindery.Proofs.Checks
import Mathlib.Order.Defs.Unbundled

namespace Bindery

/-! ## Ways -/

namespace Path

/-- The names on the way from the root after one more segment, the last name first. -/
def follow (way : List String) (segment : String) : List String :=
  if segment = "" ∨ segment = "." then way else if segment = ".." then way.tail else segment :: way

/-- **`p.location`** -- where an absolute path leads. -/
def location (p : Path) : Location :=
  (p.segments.foldl follow []).reverse

/-- The last segment of a path. -/
def lastSegment (p : Path) : String :=
  p.segments.getLast?.getD ""

theorem segments_ne_nil (p : Path) : p.segments ≠ [] := by
  rw [segments, Ne, List.map_eq_nil_iff]
  exact List.splitOn_ne_nil '/' p.text.toList

theorem dropLast_segments (p : Path) : p.segments.dropLast ++ [p.lastSegment] = p.segments := by
  rw [lastSegment, List.getLast?_eq_some_getLast p.segments_ne_nil]
  exact List.dropLast_append_getLast p.segments_ne_nil

/-- A segment that names an entry goes down. -/
theorem follow_of_not_isDots {way : List String} {segment : String}
    (h : FileTree.isDots segment = false) :
    follow way segment = segment :: way := by
  simp only [FileTree.isDots, Bool.or_eq_false_iff, beq_eq_false_iff_ne] at h
  rw [follow, if_neg (not_or.mpr ⟨h.1.1, h.1.2⟩), if_neg h.2]

/-- A path that ends with a name leads to that name, below where the rest of it leads. -/
theorem location_eq {p : Path} (h : FileTree.isDots p.lastSegment = false) :
    p.location = (p.segments.dropLast.foldl follow []).reverse ++ [p.lastSegment] := by
  rw [location, ← p.dropLast_segments, List.foldl_append, List.foldl_cons, List.foldl_nil,
    follow_of_not_isDots h, List.reverse_cons, p.dropLast_segments]

/-- A text whose last piece is empty is empty or ends with the separator. -/
theorem getLast?_of_splitOn {chars : List Char} (h : (chars.splitOn '/').getLast? = some []) :
    chars = [] ∨ chars.getLast? = some '/' := by
  induction chars with
  | nil => exact Or.inl rfl
  | cons c rest ih =>
    right
    obtain ⟨piece, pieces, hpieces⟩ := List.exists_cons_of_ne_nil (List.splitOn_ne_nil '/' rest)
    rw [List.splitOn_cons_eq_if_modifyHead, hpieces] at h
    rw [hpieces] at ih
    by_cases hslash : c = '/'
    · rw [if_pos (beq_iff_eq.mpr hslash), List.getLast?_cons_cons] at h
      rcases ih h with rfl | hrest
      · rw [hslash, List.getLast?_singleton]
      · rw [List.getLast?_cons, hrest, Option.getD_some]
    · rw [if_neg (by rwa [beq_iff_eq]), List.modifyHead_cons] at h
      cases pieces with
      | nil => simp at h
      | cons next others =>
        rw [List.getLast?_cons_cons] at h ih
        rcases ih h with rfl | hrest
        · simp at hpieces
        · rw [List.getLast?_cons, hrest, Option.getD_some]

/-- A path whose last segment is empty is empty or ends with a slash. -/
theorem endsOpen_of_lastSegment {p : Path} (h : p.lastSegment = "") :
    p.text = "" ∨ endsOpen p.text = true := by
  have hlast : (p.text.toList.splitOn '/').getLast? = some [] := by
    have hpieces := List.getLast?_eq_some_getLast (List.splitOn_ne_nil '/' p.text.toList)
    rw [lastSegment, segments, List.getLast?_map, hpieces] at h
    rw [hpieces, String.ofList_eq_empty_iff.mp h]
  rcases getLast?_of_splitOn hlast with hempty | hslash
  · exact Or.inl (String.toList_eq_nil_iff.mp hempty)
  · exact Or.inr (beq_iff_eq.mpr hslash)

end Path

/-- What the file under a name of a directory holds. -/
theorem Directory.contentAt?_append_name {here entries : Directory} {above : Location}
    (found : here.directoryAt? above = some entries) (name : String) (content : ByteArray) :
    here.contentAt? (above ++ [name]) = some content ↔ entries.lookup name =
        some (.file content) := by
  induction above generalizing here with
  | nil =>
    cases found
    rw [List.nil_append, contentAt?]
    cases entries.lookup name with
    | none => simp
    | some node => cases node <;> simp [contentAt?]
  | cons key above ih =>
    rw [directoryAt?] at found
    split at found
    · rename_i inner hinner
      rw [List.cons_append, contentAt?, hinner]
      exact ih found
    · cases found

namespace FileTree

variable {t before middle after : FileTree} {p : Path}

/-! ## Following segments -/

/-- **`t.Admits way segment`** -- from the directory at a way, a segment leads to a directory. -/
def Admits (t : FileTree) (way : List String) (segment : String) : Prop :=
  isDots segment = true ∨ checkName segment = .ok () ∧
    (t.root.directoryAt? (segment :: way).reverse).isSome

/-- **`t.Leads way segments`** -- from the directory at a way, each segment after another leads to a
directory. -/
def Leads (t : FileTree) : List String → List String → Prop
  | _, [] => True
  | way, segment :: rest => t.Admits way segment ∧ t.Leads (Path.follow way segment) rest

theorem leads_append {way first second : List String} :
    t.Leads way (first ++ second) ↔ t.Leads way first ∧
        t.Leads (first.foldl Path.follow way) second := by
  induction first generalizing way with
  | nil => simp [Leads]
  | cons segment first ih => simp only [List.cons_append, Leads, ih, List.foldl_cons, and_assoc]

theorem Leads.of_prefix {way segments short : List String} (h : t.Leads way segments)
    (hshort : short <+: segments) :
    t.Leads way short := by
  obtain ⟨rest, rfl⟩ := hshort
  exact (leads_append.mp h).1

namespace Place

theorem way_up (place : Place t) : place.up.way = place.way.tail := by
  unfold up
  split
  · rfl
  · rename_i hnone
    exact absurd place.isSome_above (by simp [hnone])

/-- The entry under a name is a directory exactly where there is a directory one name further down.
-/
theorem isSome_directoryAt?_iff (place : Place t) (segment : String) :
    (t.root.directoryAt? (segment :: place.way).reverse).isSome ↔
      ∃ inner, place.entries.lookup segment = some (.directory inner) := by
  rw [List.reverse_cons, Directory.directoryAt?_append, place.found, Option.bind_some,
    Directory.directoryAt?]
  cases place.entries.lookup segment with
  | none => simp
  | some node => cases node <;> simp [Directory.directoryAt?]

/-- A name is followed into the directory that stands under it. -/
theorem enter_name_iff (place : Place t) {segment : String} (hdots : isDots segment = false)
    (way : List String) :
    (∃ next, place.enter segment = .ok next ∧ next.way = way) ↔
      (checkName segment = .ok () ∧ ∃ inner, place.entries.lookup segment =
        some (.directory inner)) ∧
        way = segment :: place.way := by
  simp only [isDots, Bool.or_eq_false_iff, beq_eq_false_iff_ne] at hdots
  unfold enter
  rw [if_neg (not_or.mpr hdots.1), if_neg hdots.2]
  constructor
  · rintro ⟨next, hnext, rfl⟩
    obtain ⟨_, hname, hnext⟩ := bind_eq_ok_iff.mp hnext
    split at hnext
    · rename_i inner hinner
      cases hnext
      exact ⟨⟨hname, inner, hinner⟩, rfl⟩
    · cases hnext
    · cases hnext
  · rintro ⟨⟨hname, inner, hinner⟩, rfl⟩
    simp only [bind_eq_ok_iff, hname]
    split
    · exact ⟨_, ⟨(), trivial, rfl⟩, rfl⟩
    · rename_i hfile
      rw [hinner] at hfile
      cases hfile
    · rename_i hnone
      rw [hinner] at hnone
      cases hnone

/-- A segment is followed exactly where it leads to a directory, and then it leads there. -/
theorem enter_eq_ok_iff (place : Place t) (segment : String) (way : List String) :
    (∃ next, place.enter segment = .ok next ∧ next.way = way) ↔
      t.Admits place.way segment ∧ way = Path.follow place.way segment := by
  cases hdots : isDots segment with
  | false =>
    rw [enter_name_iff place hdots, Path.follow_of_not_isDots hdots, Admits,
      isSome_directoryAt?_iff, hdots]
    simp
  | true =>
    have hadmits : t.Admits place.way segment := Or.inl hdots
    rw [and_iff_right hadmits]
    have hpure : ∀ here : Place t, (∃ next, (pure here : Except FileError (Place t)) = .ok next ∧
      next.way = way) ↔
        way = here.way := by
      intro here
      constructor
      · rintro ⟨next, hnext, rfl⟩
        rw [pure_eq_ok_iff.mp hnext]
      · rintro rfl
        exact ⟨here, rfl, rfl⟩
    unfold enter Path.follow
    by_cases hstay : segment = "" ∨ segment = "."
    · rw [if_pos hstay, if_pos hstay]
      exact hpure place
    · have hup : segment = ".." := by
        simpa [isDots, not_or.mp hstay] using hdots
      rw [if_neg hstay, if_neg hstay, if_pos hup, if_pos hup, ← way_up]
      exact hpure place.up

/-- Segments are followed exactly where each of them leads to a directory, and then to where they
lead. -/
theorem foldlM_enter_eq_ok_iff (place : Place t) (segments way : List String) :
    (∃ last, segments.foldlM enter place = .ok last ∧ last.way = way) ↔
      t.Leads place.way segments ∧ way = segments.foldl Path.follow place.way := by
  induction segments generalizing place with
  | nil =>
    simp only [List.foldlM_nil, List.foldl_nil, Leads, true_and]
    constructor
    · rintro ⟨last, hlast, rfl⟩
      rw [pure_eq_ok_iff.mp hlast]
    · rintro rfl
      exact ⟨place, rfl, rfl⟩
  | cons segment rest ih =>
    simp only [List.foldlM_cons, List.foldl_cons, Leads, bind_eq_ok_iff]
    constructor
    · rintro ⟨last, ⟨next, hnext, hlast⟩, rfl⟩
      obtain ⟨hadmits, hway⟩ := (place.enter_eq_ok_iff segment next.way).mp ⟨next, hnext, rfl⟩
      obtain ⟨hrest, hlastWay⟩ := (ih next).mp ⟨last, hlast, rfl⟩
      rw [hway] at hrest hlastWay
      exact ⟨⟨hadmits, hrest⟩, hlastWay⟩
    · rintro ⟨⟨hadmits, hrest⟩, rfl⟩
      obtain ⟨next, hnext, hway⟩ := (place.enter_eq_ok_iff segment _).mpr ⟨hadmits, rfl⟩
      obtain ⟨last, hlast, hlastWay⟩ :=
        (ih next).mpr ⟨hway ▸ hrest, congrArg (rest.foldl Path.follow) hway.symm⟩
      exact ⟨last, ⟨next, hnext, hlast⟩, hlastWay⟩

end Place

/-! ## Reaching names -/

/-- **`t.Reaches p`** -- the path ends with a name, and what comes before leads to a directory.
Whether anything stands under that name is another question. -/
structure Reaches (t : FileTree) (p : Path) : Prop where
  text : checkText p = .ok ()
  way : t.Leads [] p.segments.dropLast
  dots : isDots p.lastSegment = false
  name : checkName p.lastSegment = .ok ()

/-- What is entered on the way to a path's last segment. -/
theorem enter_dropLast_iff :
    (∃ place, t.enter p.segments.dropLast = .ok place) ↔ t.Leads [] p.segments.dropLast := by
  constructor
  · rintro ⟨place, hplace⟩
    exact ((Place.foldlM_enter_eq_ok_iff (Place.top t) _ _).mp ⟨place, hplace, rfl⟩).1
  · intro h
    obtain ⟨place, hplace, -⟩ := (Place.foldlM_enter_eq_ok_iff (Place.top t) _ _).mpr ⟨h, rfl⟩
    exact ⟨place, hplace⟩

/-- The directory that is entered on the way to a path that ends with a name is the one above the
path's location. -/
theorem found_above {place : Place t} (h : t.enter p.segments.dropLast = .ok place)
    (hdots : isDots p.lastSegment = false) :
    p.location = place.location ++ [p.lastSegment] ∧ t.root.directoryAt? place.location =
        some place.entries := by
  obtain ⟨-, hway⟩ := (Place.foldlM_enter_eq_ok_iff (Place.top t) _ _).mp ⟨place, h, rfl⟩
  rw [Path.location_eq hdots, Place.location, hway]
  exact ⟨rfl, hway ▸ place.found⟩

/-- Finding as a chain of steps. -/
theorem find_eq (t : FileTree) (p : Path) : t.find p = (do
    checkText p
    let place ← t.enter p.segments.dropLast
    place.find p.lastSegment) :=
  rfl

/-- What is found under a name. -/
theorem Place.find_name_iff (place : Place t) {segment : String} (hdots : isDots segment = false)
    (node : FileNode) :
    place.find segment = .ok node ↔ checkName segment = .ok () ∧ place.entries.lookup segment =
        some node := by
  simp only [isDots, Bool.or_eq_false_iff, beq_eq_false_iff_ne] at hdots
  unfold find
  rw [if_neg (not_or.mpr hdots.1), if_neg hdots.2, bind_eq_ok_iff]
  cases place.entries.lookup segment with
  | none =>
    constructor
    · rintro ⟨_, -, hnode⟩
      cases hnode
    · rintro ⟨-, hnode⟩
      cases hnode
  | some found =>
    constructor
    · rintro ⟨_, hname, hnode⟩
      exact ⟨hname, congrArg some (pure_eq_ok_iff.mp hnode)⟩
    · rintro ⟨hname, hnode⟩
      exact ⟨(), hname, congrArg Except.ok (Option.some.inj hnode)⟩

/-- Dots find directories only. -/
theorem Place.find_dots (place : Place t) {segment : String} (hdots : isDots segment = true) :
    ∃ entries, place.find segment = .ok (.directory entries) := by
  unfold find
  by_cases hstay : segment = "" ∨ segment = "."
  · exact ⟨_, if_pos hstay⟩
  · have hup : segment = ".." := by
      simpa [isDots, not_or.mp hstay] using hdots
    rw [if_neg hstay, if_pos hup]
    exact ⟨_, rfl⟩

/-- **A file is found exactly where the path reaches a name under which a file stands.** -/
theorem find_eq_file_iff {content : ByteArray} :
    t.find p = .ok (.file content) ↔ t.Reaches p ∧ t.root.contentAt? p.location = some content := by
  rw [find_eq]
  simp only [bind_eq_ok_iff]
  constructor
  · rintro ⟨_, htext, place, hplace, hfind⟩
    have hdots : isDots p.lastSegment = false := by
      rw [← Bool.not_eq_true]
      intro hdots
      obtain ⟨entries, hentries⟩ := place.find_dots hdots
      rw [hentries] at hfind
      cases hfind
    obtain ⟨hname, hlookup⟩ := (place.find_name_iff hdots _).mp hfind
    obtain ⟨hlocation, hfound⟩ := found_above hplace hdots
    refine ⟨⟨htext, enter_dropLast_iff.mp ⟨place, hplace⟩, hdots, hname⟩, ?_⟩
    rw [hlocation]
    exact (Directory.contentAt?_append_name hfound _ _).mpr hlookup
  · rintro ⟨hreaches, hcontent⟩
    obtain ⟨place, hplace⟩ := enter_dropLast_iff.mpr hreaches.way
    obtain ⟨hlocation, hfound⟩ := found_above hplace hreaches.dots
    rw [hlocation, Directory.contentAt?_append_name hfound] at hcontent
    exact ⟨(), hreaches.text, place, hplace, (place.find_name_iff hreaches.dots _).mpr
      ⟨hreaches.name, hcontent⟩⟩

/-- Every segment of a path at which a directory stands leads to a directory. -/
theorem leads_of_find_directory {entries : Directory} (h : t.find p = .ok (.directory entries)) :
    t.Leads [] p.segments := by
  rw [find_eq] at h
  simp only [bind_eq_ok_iff] at h
  obtain ⟨_, -, place, hplace, hfind⟩ := h
  have hway := (Place.foldlM_enter_eq_ok_iff (Place.top t) _ _).mp ⟨place, hplace, rfl⟩
  have hbefore : place.way = p.segments.dropLast.foldl Path.follow [] := hway.2
  rw [← p.dropLast_segments, leads_append, ← hbefore]
  refine ⟨hway.1, ?_, trivial⟩
  cases hdots : isDots p.lastSegment with
  | true => exact Or.inl hdots
  | false =>
    obtain ⟨hname, hlookup⟩ := (place.find_name_iff hdots _).mp hfind
    exact Or.inr ⟨hname, (place.isSome_directoryAt?_iff _).mpr ⟨entries, hlookup⟩⟩

/-! ## Looking and reading -/

theorem kind?_eq_file_iff :
    t.kind? p = some .file ↔ t.Reaches p ∧ (t.root.contentAt? p.location).isSome := by
  rw [Option.isSome_iff_exists, ← exists_and_left]
  simp only [← find_eq_file_iff, kind?]
  cases t.find p with
  | error e => simp
  | ok node => cases node <;> simp [FileNode.kind]

theorem leads_of_kind?_directory (h : t.kind? p = some .directory) : t.Leads [] p.segments := by
  unfold kind? at h
  split at h
  · rename_i node hfind
    cases node with
    | directory entries => exact leads_of_find_directory hfind
    | file content => cases h
  · cases h

/-- Bytes are read as a text exactly when they are the bytes of that text. -/
theorem fromUTF8?_eq_some_iff {content : ByteArray} {text : String} :
    String.fromUTF8? content = some text ↔ content = text.toUTF8 := by
  unfold String.fromUTF8?
  constructor
  · intro h
    split at h
    · cases h
      rfl
    · cases h
  · rintro rfl
    exact dif_pos text.isValidUTF8

/-- **A text is read exactly where the path reaches a file that holds its bytes.** -/
theorem read_eq_ok_iff {text : String} :
    t.read p = .ok text ↔ t.Reaches p ∧ t.root.contentAt? p.location = some text.toUTF8 := by
  rw [← find_eq_file_iff, read, bind_eq_ok_iff]
  constructor
  · rintro ⟨node, hnode, htext⟩
    cases node with
    | directory entries => cases htext
    | file content =>
      simp only at htext
      split at htext
      · rename_i found hfound
        cases htext
        rw [hnode, fromUTF8?_eq_some_iff.mp hfound]
      · cases htext
  · intro h
    refine ⟨_, h, ?_⟩
    simp only [fromUTF8?_eq_some_iff.mpr rfl]

/-! ## Changes -/

/-- **`before.Grows after`** -- every directory of the first tree is one of the second. -/
def Grows (before after : FileTree) : Prop :=
  ∀ location, (before.root.directoryAt? location).isSome → (after.root.directoryAt? location).isSome

/-- **`before.KeepsFiles after`** -- the second tree has the directories of the first, perhaps more,
and the same files. -/
structure KeepsFiles (before after : FileTree) : Prop where
  directories : before.Grows after
  files : ∀ location, after.root.contentAt? location = before.root.contentAt? location

theorem Grows.refl (t : FileTree) : t.Grows t :=
  fun _ h => h

theorem Grows.trans (first : before.Grows middle) (second : middle.Grows after) :
    before.Grows after :=
  fun location h => second location (first location h)

theorem KeepsFiles.refl (t : FileTree) : t.KeepsFiles t :=
  ⟨.refl t, fun _ => rfl⟩

theorem KeepsFiles.trans (first : before.KeepsFiles middle) (second : middle.KeepsFiles after) :
    before.KeepsFiles after :=
  ⟨first.directories.trans second.directories, fun location =>
    (second.files location).trans (first.files location)⟩

instance : IsPreorder FileTree Grows where
  refl := Grows.refl
  trans _ _ _ := Grows.trans

instance : IsPreorder FileTree KeepsFiles where
  refl := KeepsFiles.refl
  trans _ _ _ := KeepsFiles.trans

/-- A way that is there stays there. -/
theorem Leads.grow {way segments : List String} (h : before.Leads way segments)
    (hgrows : before.Grows after) :
    after.Leads way segments := by
  induction segments generalizing way with
  | nil => trivial
  | cons segment rest ih =>
    refine ⟨?_, ih h.2⟩
    rcases h.1 with hdots | ⟨hname, hdirectory⟩
    · exact Or.inl hdots
    · exact Or.inr ⟨hname, hgrows _ hdirectory⟩

/-- A path goes on reaching what it reaches. -/
theorem Reaches.grow (h : before.Reaches p) (hgrows : before.Grows after) : after.Reaches p :=
  ⟨h.text, h.way.grow hgrows, h.dots, h.name⟩

/-! ## Writing -/

theorem closedSegments_eq (h : p.lastSegment ≠ "") : closedSegments p = p.segments := by
  rw [closedSegments, ← p.dropLast_segments, List.reverse_append, List.reverse_singleton,
    List.singleton_append, List.dropWhile_cons_of_neg (by rwa [beq_iff_eq]), List.reverse_cons,
    List.reverse_reverse]

/-- Writing as a chain of steps. -/
theorem write_eq (t : FileTree) (p : Path) (content : ByteArray) : t.write p content = (do
    checkText p
    let place ← t.enter (closedSegments p).dropLast
    let last := (closedSegments p).getLast?.getD ""
    if isDots last || Path.endsOpen p.text then .error .isADirectory
    else
      checkName last
      match place.entries.lookup last with
      | some (.directory _) => .error .isADirectory
      | _ => .ok (t.put (place.location ++ [last]) (.file content))) :=
  rfl

/-- A path under which a file is written ends with a name. -/
theorem lastSegment_ne_empty_of_write {content : ByteArray} (h : t.write p content = .ok after) :
    p.lastSegment ≠ "" := by
  intro hempty
  rw [write_eq] at h
  simp only [bind_eq_ok_iff] at h
  obtain ⟨_, -, place, -, h⟩ := h
  rcases Path.endsOpen_of_lastSegment hempty with htext | hopen
  · obtain ⟨text⟩ := p
    obtain rfl : text = "" := htext
    have hdots : isDots ((closedSegments ⟨""⟩).getLast?.getD "") = true := by decide
    simp [hdots] at h
  · simp [hopen] at h

/-- Writing under a path whose last segment is not empty. -/
theorem write_eq_of_lastSegment (h : p.lastSegment ≠ "") (content : ByteArray) :
    t.write p content = (do
    checkText p
    let place ← t.enter p.segments.dropLast
    if isDots p.lastSegment || Path.endsOpen p.text then .error .isADirectory
    else
      checkName p.lastSegment
      match place.entries.lookup p.lastSegment with
      | some (.directory _) => .error .isADirectory
      | _ => .ok (t.put (place.location ++ [p.lastSegment]) (.file content))) := by
  rw [write_eq, closedSegments_eq h]
  rfl

/-- **A write changes the one file where its path leads.** -/
theorem write_effect {content : ByteArray} (h : t.write p content = .ok after) :
    t.Reaches p ∧ t.Grows after ∧
      ∀ location, after.root.contentAt? location = if location = p.location then some content else
          t.root.contentAt? location := by
  rw [write_eq_of_lastSegment (lastSegment_ne_empty_of_write h)] at h
  simp only [bind_eq_ok_iff] at h
  obtain ⟨_, htext, place, hplace, h⟩ := h
  split at h
  · cases h
  · rename_i hclosed
    rw [Bool.or_eq_true, not_or, Bool.not_eq_true] at hclosed
    obtain ⟨_, hname, h⟩ := bind_eq_ok_iff.mp h
    obtain ⟨hlocation, hfound⟩ := found_above hplace hclosed.1
    have hfree : ∀ inner, place.entries.lookup p.lastSegment ≠ some (.directory inner) := by
      intro inner hinner
      rw [hinner] at h
      cases h
    have hput : after = t.put p.location (.file content) := by
      rw [hlocation]
      split at h
      · cases h
      · exact (Except.ok.inj h).symm
    refine ⟨⟨htext, enter_dropLast_iff.mp ⟨place, hplace⟩, hclosed.1, hname⟩, ?_, ?_⟩
    · intro location hdirectory
      rw [hput, hlocation]
      exact Directory.isSome_directoryAt?_put hfound hfree _ hdirectory
    · intro location
      rw [hput, hlocation]
      exact Directory.contentAt?_put_file hfound hfree content location

/-! ## Making directories -/

/-- Making a directory as a chain of steps. -/
theorem makeDirectory_eq (t : FileTree) (p : Path) : t.makeDirectory p = (do
    checkText p
    let place ← t.enter (closedSegments p).dropLast
    let last := (closedSegments p).getLast?.getD ""
    if isDots last then .error .exists
    else
      checkName last
      match place.entries.lookup last with
      | some _ => .error .exists
      | none => .ok (t.put (place.location ++ [last]) (.directory []))) :=
  rfl

/-- **A new directory changes no file.** -/
theorem makeDirectory_effect (h : t.makeDirectory p = .ok after) : t.KeepsFiles after := by
  rw [makeDirectory_eq] at h
  simp only [bind_eq_ok_iff] at h
  obtain ⟨_, -, place, -, h⟩ := h
  split at h
  · cases h
  · obtain ⟨_, -, h⟩ := bind_eq_ok_iff.mp h
    split at h
    · cases h
    · rename_i hnone
      cases h
      refine ⟨?_, ?_⟩
      · intro location hdirectory
        exact Directory.isSome_directoryAt?_put place.found (by simp [hnone]) _ hdirectory
      · intro location
        exact Directory.contentAt?_put_directory place.found hnone location

end FileTree

end Bindery
