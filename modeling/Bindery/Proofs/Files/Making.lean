/-
# Bindery.Proofs.Files.Making -- what making directories adds, and where.

A directory is made at the end of a path, and before that at the ends of the paths that it lies in,
as far as they are missing.  So what is new in a tree stands where one of these paths leads.
Nothing is new, and the answer tells whether a directory stands there already, unless the way to the
path is missing; and when a directory has been made, the way to it is there.

Two dots are what makes this delicate.  A way that goes down and up again passes directories of
which its location tells nothing. Without two dots nothing is missing on the way to a path at whose
location a directory stands.
-/
import Mathlib.Data.List.TakeWhile
import Bindery.Proofs.Files.Ancestors
import Bindery.Proofs.Files.Programs

namespace Bindery

/-! ## Directories -/

namespace Directory

/-- A directory stands above every directory. -/
theorem isSome_directoryAt?_of_append {here : Directory} {above rest : Location}
    (h : (here.directoryAt? (above ++ rest)).isSome) :
    (here.directoryAt? above).isSome := by
  rw [directoryAt?_append] at h
  cases hfound : here.directoryAt? above with
  | none =>
    rw [hfound] at h
    cases h
  | some entries => rfl

/-- A directory stands above every file. -/
theorem isSome_directoryAt?_of_contentAt? {here : Directory} {above rest : Location}
    (hne : rest ≠ [])
    (h : (here.contentAt? (above ++ rest)).isSome) : (here.directoryAt? above).isSome := by
  induction above generalizing here with
  | nil => rfl
  | cons key above ih =>
    rw [List.cons_append, contentAt?] at h
    rw [directoryAt?]
    split at h
    · rename_i inner hkey
      rw [hkey]
      exact ih h
    · rw [if_neg (by simp [hne])] at h
      cases h
    · cases h

/-- Where a directory stands no file does. -/
theorem contentAt?_of_isSome_directoryAt? {here : Directory} {location : Location}
    (h : (here.directoryAt? location).isSome) :
    here.contentAt? location = none := by
  induction location generalizing here with
  | nil => rfl
  | cons name rest ih =>
    rw [directoryAt?] at h
    rw [contentAt?]
    split at h
    · rename_i inner hname
      rw [hname]
      exact ih h
    · cases h

/-- A directory is found where it has been put. -/
theorem directoryAt?_put_self {here entries inner : Directory} {above : Location}
    (found : here.directoryAt? above = some entries) (name : String) :
    (here.put (above ++ [name]) (.directory inner)).directoryAt? (above ++ [name]) =
      some inner := by
  induction above generalizing here with
  | nil => simp [put, directoryAt?, lookup_set]
  | cons key above ih =>
    rw [directoryAt?] at found
    split at found
    · rename_i outer hkey
      rw [List.cons_append, put_cons here key hkey (by simp), directoryAt?, lookup_set, if_pos rfl]
      exact ih found
    · cases found

/-- A file or an empty directory adds no directory but where it is put. -/
theorem isSome_directoryAt?_of_put {here entries : Directory} {above : Location}
    (found : here.directoryAt? above = some entries)
    (name : String) {node : FileNode} (hleaf : ∀ inner, node = .directory inner → inner = [])
    {other : Location}
    (h : ((here.put (above ++ [name]) node).directoryAt? other).isSome) :
    (here.directoryAt? other).isSome ∨ other = above ++ [name] := by
  induction above generalizing here other with
  | nil =>
    cases other with
    | nil => exact Or.inl rfl
    | cons first rest =>
      simp only [List.nil_append, put, directoryAt?, lookup_set] at h ⊢
      by_cases hfirst : first = name
      · subst hfirst
        rw [if_pos rfl] at h
        cases node with
        | file content => cases h
        | directory inner =>
          obtain rfl := hleaf inner rfl
          -- nothing stands in an empty directory
          cases rest with
          | nil => exact Or.inr rfl
          | cons next more => simp [directoryAt?] at h
      · rw [if_neg hfirst] at h
        exact Or.inl h
  | cons key above ih =>
    rw [directoryAt?] at found
    split at found
    · rename_i outer hkey
      rw [List.cons_append, put_cons here key hkey (by simp)] at h
      cases other with
      | nil => exact Or.inl rfl
      | cons first rest =>
        simp only [directoryAt?, lookup_set] at h ⊢
        by_cases hfirst : first = key
        · subst hfirst
          rw [if_pos rfl] at h
          rw [hkey]
          rcases ih found h with hold | rfl
          · exact Or.inl hold
          · exact Or.inr rfl
        · rw [if_neg hfirst] at h
          exact Or.inl h
    · cases found

end Directory

namespace FileTree

variable {t before middle after : FileTree} {p : Path} {location : Location}

/-! ## Standing -/

/-- **`t.Stands location`** -- a directory or a file stands at the location. -/
def Stands (t : FileTree) (location : Location) : Prop :=
  (t.root.directoryAt? location).isSome ∨ (t.root.contentAt? location).isSome

instance (t : FileTree) (location : Location) : Decidable (t.Stands location) :=
  inferInstanceAs (Decidable (_ ∨ _))

/-- A directory stands above whatever stands. -/
theorem Stands.isSome_above {above rest : Location} (h : t.Stands (above ++ rest))
    (hne : rest ≠ []) :
    (t.root.directoryAt? above).isSome := by
  rcases h with h | h
  · exact Directory.isSome_directoryAt?_of_append h
  · exact Directory.isSome_directoryAt?_of_contentAt? hne h

/-- What stands under a name of a directory. -/
theorem stands_append_name_iff {entries : Directory} {above : Location}
    (found : t.root.directoryAt? above = some entries)
    (name : String) : t.Stands (above ++ [name]) ↔ ∃ node, entries.lookup name = some node := by
  have hdirectory : (t.root.directoryAt? (above ++ [name])).isSome ↔ ∃ inner, entries.lookup name =
      some (.directory inner) := by
    rw [Directory.directoryAt?_append, found, Option.bind_some, Directory.directoryAt?]
    cases entries.lookup name with
    | none => simp
    | some node => cases node <;> simp [Directory.directoryAt?]
  have hfile : (t.root.contentAt? (above ++ [name])).isSome ↔ ∃ content, entries.lookup name =
      some (.file content) := by
    rw [Option.isSome_iff_exists]
    exact exists_congr fun content => Directory.contentAt?_append_name found name content
  rw [Stands, hdirectory, hfile]
  constructor
  · rintro (⟨inner, h⟩ | ⟨content, h⟩)
    · exact ⟨_, h⟩
    · exact ⟨_, h⟩
  · rintro ⟨node, h⟩
    cases node with
    | directory inner => exact Or.inl ⟨inner, h⟩
    | file content => exact Or.inr ⟨content, h⟩

/-- **Something is seen under a name exactly where the path reaches the name and something stands
there.** -/
theorem isSome_kind?_iff (hdots : isDots p.lastSegment = false) : (t.kind? p).isSome ↔ t.Reaches p ∧
    t.Stands p.location := by
  have hseen : (t.kind? p).isSome ↔ ∃ node, t.find p = .ok node := by
    rw [kind?]
    cases t.find p <;> simp
  simp only [hseen, find_eq, bind_eq_ok_iff]
  constructor
  · rintro ⟨node, _, htext, place, hplace, hfind⟩
    obtain ⟨hname, hlookup⟩ := (place.find_name_iff hdots _).mp hfind
    obtain ⟨hlocation, hfound⟩ := found_above hplace hdots
    refine ⟨⟨htext, enter_dropLast_iff.mp ⟨place, hplace⟩, hdots, hname⟩, ?_⟩
    rw [hlocation]
    exact (stands_append_name_iff hfound _).mpr ⟨node, hlookup⟩
  · rintro ⟨hreaches, hstands⟩
    obtain ⟨place, hplace⟩ := enter_dropLast_iff.mpr hreaches.way
    obtain ⟨hlocation, hfound⟩ := found_above hplace hdots
    rw [hlocation] at hstands
    obtain ⟨node, hlookup⟩ := (stands_append_name_iff hfound _).mp hstands
    exact ⟨node, (), hreaches.text, place, hplace, (place.find_name_iff hdots _).mpr
      ⟨hreaches.name, hlookup⟩⟩

/-! ## Refusals -/

theorem checkText_ne_notFound : checkText p ≠ .error .notFound := by
  rw [checkText]
  split
  · exact nofun
  · split <;> exact nofun

theorem checkName_ne_notFound {name : String} : checkName name ≠ .error .notFound := by
  rw [checkName]
  split <;> exact nofun

/-! ## Ways without two dots -/

/-- A segment other than two dots leads to where it is or further down. -/
theorem suffix_follow {way : List String} {segment : String} (h : segment ≠ "..") :
    way <:+ Path.follow way segment := by
  rw [Path.follow]
  split
  · exact List.suffix_rfl
  · exact List.suffix_cons _ _

theorem suffix_foldl_follow {segments way : List String} (h : ".." ∉ segments) :
    way <:+ segments.foldl Path.follow way := by
  induction segments generalizing way with
  | nil => exact List.suffix_rfl
  | cons segment rest ih =>
    obtain ⟨hsegment, hrest⟩ := not_or.mp (mt List.mem_cons.mpr h)
    exact (suffix_follow (Ne.symm hsegment)).trans (ih hrest)

/-- A name under which a directory stands is entered or refused. -/
theorem Place.enter_of_isSome (place : Place t) {segment : String}
    (h : (t.root.directoryAt? (Path.follow place.way segment).reverse).isSome) :
    (∃ next, place.enter segment = .ok next ∧ next.way = Path.follow place.way segment) ∨
      ∃ e, place.enter segment = .error e ∧ e ≠ .notFound := by
  cases hdots : isDots segment with
  | true => exact Or.inl ((place.enter_eq_ok_iff segment _).mpr ⟨Or.inl hdots, rfl⟩)
  | false =>
    cases hname : checkName segment with
    | ok _ =>
      rw [Path.follow_of_not_isDots hdots] at h
      exact Or.inl ((place.enter_eq_ok_iff segment _).mpr ⟨Or.inr ⟨hname, h⟩, rfl⟩)
    | error e =>
      simp only [isDots, Bool.or_eq_false_iff, beq_eq_false_iff_ne] at hdots
      refine Or.inr ⟨e, ?_, fun hsame => checkName_ne_notFound (hsame ▸ hname)⟩
      unfold enter
      rw [if_neg (not_or.mpr hdots.1), if_neg hdots.2, hname]
      rfl

/-- **Without two dots nothing is missing on the way to a path at whose location a directory
stands.** -/
theorem enter_ne_notFound (hup : ".." ∉ p.segments) (h : (t.root.directoryAt? p.location).isSome) :
    t.enter p.segments ≠ .error .notFound := by
  have hsegments : ∀ (segments : List String) (place : Place t), ".." ∉ segments →
      (t.root.directoryAt? (segments.foldl Path.follow place.way).reverse).isSome →
        segments.foldlM Place.enter place ≠ .error .notFound := by
    intro segments
    induction segments with
    | nil => exact fun _ _ _ => nofun
    | cons segment rest ih =>
      intro place hup h
      have hrest : ".." ∉ rest := fun hmem => hup (List.mem_cons_of_mem _ hmem)
      -- where the rest leads lies below where the first segment leads
      have hbelow : (t.root.directoryAt? (Path.follow place.way segment).reverse).isSome := by
        have hsuffix : Path.follow place.way segment <:+ rest.foldl Path.follow
            (Path.follow place.way segment) :=
          suffix_foldl_follow hrest
        obtain ⟨further, hfurther⟩ := hsuffix
        rw [List.foldl_cons, ← hfurther, List.reverse_append] at h
        exact Directory.isSome_directoryAt?_of_append h
      rw [List.foldlM_cons]
      rcases place.enter_of_isSome hbelow with ⟨next, hnext, hway⟩ | ⟨e, he, hne⟩
      · rw [hnext]
        exact ih next hrest (hway ▸ h)
      · rw [he]
        exact fun hsame => hne (Except.error.inj hsame)
  exact hsegments p.segments (Place.top t) hup h

/-- Where all segments lead to directories, a directory stands at the location. -/
theorem Leads.isSome_directoryAt? (h : t.Leads [] p.segments) :
    (t.root.directoryAt? p.location).isSome := by
  obtain ⟨place, -, hway⟩ := (Place.foldlM_enter_eq_ok_iff (Place.top t) _ _).mpr ⟨h, rfl⟩
  rw [Path.location]
  exact hway ▸ Option.isSome_iff_exists.mpr ⟨_, place.found⟩

/-! ## Names below a path -/

/-- A name under which something can stand in a directory. -/
structure IsEntry (name : String) : Prop where
  isName : Path.IsName name
  dots : isDots name = false
  length : checkName name = .ok ()

section Joining

variable {name : String}

theorem IsEntry.isNamed (h : IsEntry name) : Path.isNamed name = true := by
  have hdots := h.dots
  simp only [isDots, Bool.or_eq_false_iff, beq_eq_false_iff_ne] at hdots
  simp [Path.isNamed, hdots.1]

theorem IsEntry.isDots_join (h : IsEntry name) : isDots (p / name).lastSegment = false := by
  rw [Path.lastSegment_join _ h.isName, h.dots]

/-- A name below a path leads to the name below where the path leads. -/
theorem location_join (h : IsEntry name) : (p / name).location = p.location ++ [name] := by
  obtain ⟨base, hbase, hsegments⟩ := p.segments_join h.isName
  have hway : p.segments.foldl Path.follow [] = base.foldl Path.follow [] := by
    rcases hbase with hbase | hbase
    · rw [hbase]
    · rw [hbase, List.foldl_append]
      rfl
  rw [Path.location, hsegments, List.foldl_append, List.foldl_cons, List.foldl_nil,
    Path.follow_of_not_isDots h.dots, List.reverse_cons, Path.location, hway]

/-- Below a directory, a name leads to a directory exactly where one stands. -/
theorem leads_join_iff (hleads : t.Leads [] p.segments) (h : IsEntry name) :
    t.Leads [] (p / name).segments ↔ (t.root.directoryAt? (p.location ++ [name])).isSome := by
  constructor
  · intro hjoined
    have hsome := hjoined.isSome_directoryAt?
    rwa [location_join h] at hsome
  · intro hsome
    obtain ⟨base, hprefix, hsegments⟩ := p.exists_segments_join h.isName
    have hlocation := location_join (p := p) h
    rw [Path.location, hsegments, List.foldl_append, List.foldl_cons, List.foldl_nil,
      Path.follow_of_not_isDots h.dots] at hlocation
    rw [hsegments, leads_append]
    refine ⟨hleads.of_prefix hprefix, Or.inr ⟨h.length, ?_⟩, trivial⟩
    rw [hlocation]
    exact hsome

end Joining

/-! ## Making one directory -/

/-- Empty segments at the end of a path are the ones that its closed segments lack. -/
theorem exists_segments_eq (p : Path) :
    ∃ count, p.segments = closedSegments p ++ List.replicate count "" := by
  refine ⟨(p.segments.reverse.takeWhile (· == "")).length, ?_⟩
  have hempty : (p.segments.reverse.takeWhile (· == "")).reverse =
      List.replicate (p.segments.reverse.takeWhile (· == "")).length "" := by
    rw [List.eq_replicate_iff]
    refine ⟨List.length_reverse, fun segment hsegment => ?_⟩
    exact eq_of_beq (List.mem_takeWhile_imp (p := (· == "")) (List.mem_reverse.mp hsegment))
  rw [← hempty, closedSegments, ← List.reverse_append, List.takeWhile_append_dropWhile,
    List.reverse_reverse]

/-- Empty segments are entered without going anywhere. -/
theorem foldlM_enter_replicate (place : Place t) (count : Nat) :
    (List.replicate count "").foldlM Place.enter place = .ok place := by
  induction count with
  | zero => rfl
  | succ count ih =>
    rw [List.replicate_succ, List.foldlM_cons]
    exact ih

theorem enter_closedSegments (t : FileTree) (p : Path) :
    t.enter (closedSegments p) = t.enter p.segments := by
  obtain ⟨count, hsegments⟩ := exists_segments_eq p
  rw [enter, enter, hsegments, List.foldlM_append]
  cases (closedSegments p).foldlM Place.enter (Place.top t) with
  | error e => rfl
  | ok place => exact (foldlM_enter_replicate place count).symm

theorem leads_closedSegments_iff : t.Leads [] (closedSegments p) ↔ t.Leads [] p.segments := by
  have hends : ∀ segments : List String, t.Leads [] segments ↔ ∃ place, t.enter segments =
      .ok place := by
    intro segments
    constructor
    · intro h
      obtain ⟨place, hplace, -⟩ := (Place.foldlM_enter_eq_ok_iff (Place.top t) _ _).mpr ⟨h, rfl⟩
      exact ⟨place, hplace⟩
    · rintro ⟨place, hplace⟩
      exact ((Place.foldlM_enter_eq_ok_iff (Place.top t) _ _).mp ⟨place, hplace, rfl⟩).1
  rw [hends, hends, enter_closedSegments]

/-- Where a path leads is told by its closed segments. -/
theorem location_eq_of_closedSegments (p : Path) :
    p.location = ((closedSegments p).foldl Path.follow []).reverse := by
  obtain ⟨count, hsegments⟩ := exists_segments_eq p
  have hempty : ∀ (count : Nat) (way : List String), (List.replicate count "").foldl Path.follow
      way = way := by
    intro count way
    induction count with
    | zero => rfl
    | succ count ih =>
      rw [List.replicate_succ, List.foldl_cons, Path.follow, if_pos (Or.inl rfl), ih]
  rw [Path.location, hsegments, List.foldl_append, hempty]

/-- A name under which nothing stands is not found. -/
theorem Place.enter_of_lookup_eq_none (place : Place t) {name : String}
    (hdots : isDots name = false)
    (hname : checkName name = .ok ()) (hnone : place.entries.lookup name = none) :
    place.enter name = .error .notFound := by
  simp only [isDots, Bool.or_eq_false_iff, beq_eq_false_iff_ne] at hdots
  unfold enter
  rw [if_neg (not_or.mpr hdots.1), if_neg hdots.2, hname]
  simp only [bind, Except.bind]
  split
  · rename_i hsome
    rw [hnone] at hsome
    cases hsome
  · rename_i hsome
    rw [hnone] at hsome
    cases hsome
  · rfl

/-- A path is entered up to its last segment that is not empty, and then that segment is entered. -/
theorem enter_eq_bind (t : FileTree) (p : Path) : t.enter p.segments = (do
    let place ← t.enter (closedSegments p).dropLast
    place.enter ((closedSegments p).getLast?.getD "")) := by
  rw [← enter_closedSegments]
  rcases List.eq_nil_or_concat' (closedSegments p) with hnil | ⟨front, last, hconcat⟩
  · rw [hnil]
    rfl
  · rw [hconcat, List.dropLast_concat, List.getLast?_concat, Option.getD_some, enter,
      List.foldlM_append]
    exact bind_congr fun place => bind_pure _

/-- **Unless something on the way is missing, no directory is made**, and the answer is not that
something is. -/
theorem makeDirectory_of_enter (h : t.enter p.segments ≠ .error .notFound) :
    ∃ e, t.makeDirectory p = .error e ∧ e ≠ .notFound := by
  rw [enter_eq_bind] at h
  rw [makeDirectory_eq]
  cases htext : checkText p with
  | error e => exact ⟨e, rfl, fun hsame => checkText_ne_notFound (hsame ▸ htext)⟩
  | ok _ =>
    cases hplace : t.enter (closedSegments p).dropLast with
    | error e =>
      rw [hplace] at h
      exact ⟨e, rfl, fun hsame => h (congrArg Except.error hsame)⟩
    | ok place =>
      rw [hplace] at h
      replace h : place.enter ((closedSegments p).getLast?.getD "") ≠ .error .notFound := h
      cases hdots : isDots ((closedSegments p).getLast?.getD "") with
      | true => exact ⟨.exists, by simp [bind, Except.bind, hdots], nofun⟩
      | false =>
        cases hname : checkName ((closedSegments p).getLast?.getD "") with
        | error e =>
          exact ⟨e, by simp [bind, Except.bind, hdots, hname], fun hsame =>
            checkName_ne_notFound (hsame ▸ hname)⟩
        | ok _ =>
          cases hlookup : place.entries.lookup ((closedSegments p).getLast?.getD "") with
          | none => exact absurd (place.enter_of_lookup_eq_none hdots hname hlookup) h
          | some node => exact ⟨.exists, by simp [bind, Except.bind, hdots, hname, hlookup], nofun⟩

/-- Where the way to the last segment is there, the answer is not that something is missing. -/
theorem makeDirectory_ne_notFound {place : Place t}
    (h : t.enter (closedSegments p).dropLast = .ok place) :
    t.makeDirectory p ≠ .error .notFound := by
  rw [makeDirectory_eq, h]
  intro hmade
  rcases bind_eq_error_iff.mp hmade with htext | ⟨_, -, hway⟩
  · exact checkText_ne_notFound htext
  · rcases bind_eq_error_iff.mp hway with hplace | ⟨_, -, hlast⟩
    · cases hplace
    · dsimp only at hlast
      split at hlast
      · cases hlast
      · rcases bind_eq_error_iff.mp hlast with hname | ⟨_, -, hfree⟩
        · exact checkName_ne_notFound hname
        · split at hfree <;> cases hfree

/-- Where a directory is made: under a name that is free, in the directory to which the segments
before that name lead. -/
theorem makeDirectory_eq_ok (h : t.makeDirectory p = .ok after) : ∃ front last, ∃ place : Place t,
    closedSegments p = front ++ [last] ∧ t.enter front = .ok place ∧ isDots last = false ∧
      checkName last = .ok () ∧
      after = t.put (place.location ++ [last]) (.directory []) := by
  rw [makeDirectory_eq] at h
  simp only [bind_eq_ok_iff] at h
  obtain ⟨_, -, place, hplace, h⟩ := h
  rcases List.eq_nil_or_concat' (closedSegments p) with hnil | ⟨front, last, hconcat⟩
  · rw [hnil] at h
    cases h
  · rw [hconcat, List.getLast?_concat, Option.getD_some] at h
    rw [hconcat, List.dropLast_concat] at hplace
    split at h
    · cases h
    · rename_i hdots
      obtain ⟨_, hname, h⟩ := bind_eq_ok_iff.mp h
      refine ⟨front, last, place, hconcat, hplace, Bool.not_eq_true _ |>.mp hdots, hname, ?_⟩
      split at h
      · cases h
      · exact (Except.ok.inj h).symm

/-- **A directory that is made is one to which its path leads, and nothing else is new.** -/
theorem makeDirectory_adds (h : t.makeDirectory p = .ok after) :
    after.Leads [] p.segments ∧ ∀ location, after.Stands location → t.Stands location ∨
        location = p.location := by
  have heffect := makeDirectory_effect h
  obtain ⟨front, last, place, hclosed, hplace, hdots, hname, rfl⟩ := makeDirectory_eq_ok h
  obtain ⟨hleads, hway⟩ := (Place.foldlM_enter_eq_ok_iff (Place.top t) _ _).mp ⟨place, hplace, rfl⟩
  have hlocation : p.location = place.location ++ [last] := by
    rw [location_eq_of_closedSegments, hclosed, List.foldl_append, List.foldl_cons, List.foldl_nil,
      Path.follow_of_not_isDots hdots, List.reverse_cons, Place.location, hway]
    rfl
  refine ⟨?_, ?_⟩
  · rw [← leads_closedSegments_iff, hclosed, leads_append]
    refine ⟨hleads.grow heffect.directories, Or.inr ⟨hname, ?_⟩, trivial⟩
    rw [List.reverse_cons]
    exact Option.isSome_iff_exists.mpr ⟨[], hway ▸ Directory.directoryAt?_put_self place.found last⟩
  · rintro location (hdirectory | hfile)
    · rw [hlocation]
      refine (Directory.isSome_directoryAt?_of_put place.found last ?_ hdirectory).imp_left Or.inl
      rintro inner ⟨⟩
      rfl
    · rw [heffect.files] at hfile
      exact Or.inl (Or.inr hfile)

/-! ## Additions -/

/-- **`AddsAt P before after`** -- what stands in the second tree and not in the first stands where
`P` says. -/
def AddsAt (P : Location → Prop) (before after : FileTree) : Prop :=
  ∀ location, after.Stands location → before.Stands location ∨ P location

variable {P : Location → Prop}

theorem AddsAt.refl (t : FileTree) : AddsAt P t t :=
  fun _ h => Or.inl h

theorem AddsAt.trans (first : AddsAt P before middle) (second : AddsAt P middle after) :
    AddsAt P before after := by
  intro location h
  rcases second location h with hmiddle | hadded
  · exact first location hmiddle
  · exact Or.inr hadded

instance : IsPreorder FileTree (AddsAt P) where
  refl := AddsAt.refl
  trans _ _ _ := AddsAt.trans

/-- A write adds at most what it writes. -/
theorem write_adds {content : ByteArray} (h : t.write p content = .ok after) :
    AddsAt (· = p.location) t after := by
  have hfiles := (write_effect h).2.2
  rw [write_eq_of_lastSegment (lastSegment_ne_empty_of_write h)] at h
  simp only [bind_eq_ok_iff] at h
  obtain ⟨_, -, place, hplace, h⟩ := h
  split at h
  · cases h
  · rename_i hclosed
    rw [Bool.or_eq_true, not_or, Bool.not_eq_true] at hclosed
    obtain ⟨_, -, h⟩ := bind_eq_ok_iff.mp h
    obtain ⟨hlocation, hfound⟩ := found_above hplace hclosed.1
    have hput : after = t.put p.location (.file content) := by
      rw [hlocation]
      split at h
      · cases h
      · exact (Except.ok.inj h).symm
    rintro location (hdirectory | hfile)
    · rw [hput, hlocation] at hdirectory
      rw [hlocation]
      refine (Directory.isSome_directoryAt?_of_put hfound _ ?_ hdirectory).imp_left Or.inl
      rintro inner ⟨⟩
    · rw [hfiles] at hfile
      by_cases hsame : location = p.location
      · exact Or.inr hsame
      · rw [if_neg hsame] at hfile
        exact Or.inl (Or.inr hfile)

end FileTree

/-! ## Programs -/

namespace Program

variable {ε : Type} {t after : FileTree} {p : Path} {above : List (List String)}
  {made : Except FileError Unit}
  {result : Except ε (Except FileError Unit)}

theorem makeOne_ends_iff : (makeOne p).Ends t result after ↔
    t.makeDirectory p = .ok after ∧ result = .ok (.ok ()) ∨ ∃ e, t.makeDirectory p = .error e ∧
        result = .ok (.error e) ∧ after = t := by
  simp only [Ends, makeOne, run]
  cases t.makeDirectory p with
  | ok next => simp [answer, eq_comm, and_comm]
  | error e => simp [answer, eq_comm]

/-- Settling changes nothing. -/
theorem settle_ends (h : (makeChain.settle p made).Ends t result after) :
    after = t ∧ (result = .ok (.ok ()) → made = .ok () ∨ t.kind? p = some .directory) := by
  cases made with
  | ok _ => exact ⟨(pure_ends_iff.mp h).2, fun _ => Or.inl rfl⟩
  | error e =>
    rw [makeChain.settle, bind_ends_iff_of_ok (kindOf_ends_iff.mpr ⟨rfl, rfl⟩)] at h
    split at h
    · rename_i hkind
      exact ⟨(pure_ends_iff.mp h).2, fun _ => Or.inr hkind⟩
    · obtain ⟨rfl, rfl⟩ := pure_ends_iff.mp h
      exact ⟨rfl, nofun⟩

/-- Once a directory has been made, that is all. -/
theorem makeChain_ends_iff_of_ok {next : FileTree} (h : t.makeDirectory p = .ok next) :
    (makeChain p above).Ends t result after ↔ result = .ok (.ok ()) ∧ after = next := by
  have hmade : (makeOne p : Program ε _).Ends t (.ok (.ok ())) next :=
    makeOne_ends_iff.mpr (Or.inl ⟨h, rfl⟩)
  cases above with
  | nil =>
    rw [makeChain, bind_ends_iff_of_ok hmade]
    exact pure_ends_iff
  | cons segments rest =>
    rw [makeChain, bind_ends_iff_of_ok hmade]
    exact pure_ends_iff

/-- A directory that cannot be made for another reason than that something is missing is settled. -/
theorem makeChain_ends_iff_of_error {e : FileError} (h : t.makeDirectory p = .error e)
    (hne : e ≠ .notFound) :
    (makeChain p above).Ends t result after ↔
        (makeChain.settle p (.error e)).Ends t result after := by
  have hmade : (makeOne p : Program ε _).Ends t (.ok (.error e)) t :=
    makeOne_ends_iff.mpr (Or.inr ⟨e, h, rfl, rfl⟩)
  cases above with
  | nil =>
    rw [makeChain, bind_ends_iff_of_ok hmade]
    cases e <;> first | exact absurd rfl hne | exact Iff.rfl
  | cons segments rest =>
    rw [makeChain, bind_ends_iff_of_ok hmade]
    cases e <;> first | exact absurd rfl hne | exact Iff.rfl

/-- **Unless something on the way is missing, making directories changes nothing**, and succeeds
only where a directory stands. -/
theorem makeDirectories_of_enter (h : t.enter p.segments ≠ .error .notFound)
    (hends : (makeDirectories p).Ends t result after) :
    after = t ∧ (result = .ok (.ok ()) → t.kind? p = some .directory) := by
  obtain ⟨e, hmade, hne⟩ := FileTree.makeDirectory_of_enter h
  rw [makeDirectories, makeChain_ends_iff_of_error hmade hne] at hends
  obtain ⟨htree, hsettled⟩ := settle_ends hends
  refine ⟨htree, fun hresult => ?_⟩
  rcases hsettled hresult with hok | hkind
  · cases hok
  · exact hkind

/-- Making directories keeps every directory and every file, however it ends. -/
theorem makeDirectories_keepsFiles (hends : (makeDirectories p).Ends t result after) :
    t.KeepsFiles after :=
  (makeDirectories_within p).tree_of_ends (P := fun _ => True) hends

/-- Where the way to the last segment is there, at most one directory is made. -/
theorem makeDirectories_adds_of_enter {place : FileTree.Place t}
    (h : t.enter (FileTree.closedSegments p).dropLast = .ok place)
    (hends : (makeDirectories p).Ends t result after) :
    FileTree.AddsAt (· = p.location) t after := by
  cases hmade : t.makeDirectory p with
  | error e =>
    have hne : e ≠ .notFound := fun hsame => FileTree.makeDirectory_ne_notFound h (hsame ▸ hmade)
    rw [makeDirectories, makeChain_ends_iff_of_error hmade hne] at hends
    rw [(settle_ends hends).1]
    exact .refl t
  | ok next =>
    rw [makeDirectories, makeChain_ends_iff_of_ok hmade] at hends
    rw [hends.2]
    exact (FileTree.makeDirectory_adds hmade).2

/-- What making one directory and settling it ends well with leads there. -/
theorem leads_of_makeOne {middle : FileTree}
    (hmade : (makeOne p : Program ε _).Ends t (.ok made) middle)
    (hsettled : (makeChain.settle p made : Program ε _).Ends middle (.ok (.ok ())) after) :
    after.Leads [] p.segments := by
  obtain ⟨rfl, hreason⟩ := settle_ends hsettled
  rcases hreason rfl with rfl | hkind
  · rcases makeOne_ends_iff.mp hmade with ⟨hdirectory, -⟩ | ⟨e, -, hresult, -⟩
    · exact (FileTree.makeDirectory_adds hdirectory).1
    · cases hresult
  · exact FileTree.leads_of_kind?_directory hkind

/-- **When directories have been made, the way is there.** -/
theorem makeDirectories_leads
    (hends : (makeDirectories p : Program ε _).Ends t (.ok (.ok ())) after) :
    after.Leads [] p.segments := by
  rw [makeDirectories] at hends
  have hnotFound : ∀ {middle}, ¬ (pure (.error .notFound) : Program ε (Except FileError Unit)).Ends
      middle (.ok (.ok ())) after := by
    intro middle h
    cases (pure_ends_iff.mp h).1
  cases habove : p.segmentsAbove with
  | nil =>
    rw [habove, makeChain, bind_ends_ok_iff] at hends
    obtain ⟨made, middle, hmade, hends⟩ := hends
    refine leads_of_makeOne hmade ?_
    split at hends
    · exact hends
    · exact absurd hends hnotFound
    · exact hends
  | cons segments rest =>
    rw [habove, makeChain, bind_ends_ok_iff] at hends
    obtain ⟨made, middle, hmade, hends⟩ := hends
    split at hends
    · exact leads_of_makeOne hmade hends
    · rw [bind_ends_ok_iff] at hends
      obtain ⟨outer, left, -, hends⟩ := hends
      split at hends
      · cases (pure_ends_iff.mp hends).1
      · obtain ⟨again, last, hagain, hends⟩ := bind_ends_ok_iff.mp hends
        exact leads_of_makeOne hagain hends
    · exact leads_of_makeOne hmade hends

/-! ## Places of new directories -/

section Additions

variable {P : Location → Prop} {Q : ε → Prop}

theorem makeOne_adds (h : P p.location) :
    (makeOne p : Program ε _).Within (FileTree.AddsAt P) Q := by
  refine ⟨fun t => ?_, nofun⟩
  rcases makeOne_ends_iff.mp (ends_run (makeOne p : Program ε _) t) with ⟨hmade, -⟩ |
    ⟨e, -, -, htree⟩
  · intro location hstands
    rcases (FileTree.makeDirectory_adds hmade).2 location hstands with hold | rfl
    · exact Or.inl hold
    · exact Or.inr h
  · rw [htree]
    exact .refl t

theorem settle_adds : (makeChain.settle p made : Program ε _).Within (FileTree.AddsAt P) Q := by
  cases made with
  | ok _ => exact pure_within _
  | error e =>
    refine (kindOf_within p).bind fun kind => ?_
    split
    · exact pure_within _
    · exact pure_within _

theorem makeChain_adds (h : P p.location)
    (habove : ∀ segments ∈ above, P (Path.ofReversed segments).location) :
    (makeChain p above : Program ε _).Within (FileTree.AddsAt P) Q := by
  induction above generalizing p with
  | nil =>
    rw [makeChain]
    refine (makeOne_adds h).bind fun made => ?_
    split
    · exact pure_within _
    · exact pure_within _
    · exact settle_adds
  | cons segments rest ih =>
    obtain ⟨houter, hrest⟩ := List.forall_mem_cons.mp habove
    rw [makeChain]
    refine (makeOne_adds h).bind fun made => ?_
    split
    · exact pure_within _
    · refine (ih houter hrest).bind fun outer => ?_
      split
      · exact pure_within _
      · exact (makeOne_adds h).bind fun _ => settle_adds
    · exact settle_adds

/-- What making directories adds stands where the path leads, or one of those that it lies in. -/
theorem makeDirectories_adds (h : P p.location) (hparents : ∀ outer ∈ p.parents, P outer.location) :
    (makeDirectories p : Program ε _).Within (FileTree.AddsAt P) Q :=
  makeChain_adds h fun _ hsegments => hparents _ (List.mem_map_of_mem hsegments)

end Additions

/-- **Without two dots, what making directories adds stands on the way to where the path leads.** -/
theorem makeDirectories_adds_prefixes {Q : ε → Prop} (hup : ".." ∉ p.segments) :
    (makeDirectories p : Program ε _).Within (FileTree.AddsAt (· <+: p.location)) Q := by
  refine makeDirectories_adds List.prefix_rfl fun outer houter => ?_
  rcases Path.segments_of_mem_parents houter with ⟨rest, hrest⟩ | hroot
  · have hrestUp : ".." ∉ rest := fun hmem => hup (hrest ▸ List.mem_append_right _ hmem)
    rw [Path.location, Path.location, ← hrest, List.foldl_append, List.reverse_prefix]
    exact FileTree.suffix_foldl_follow hrestUp
  · have hlocation : outer.location = [] := by
      rw [Path.location, hroot]
      rfl
    rw [hlocation]
    exact List.nil_prefix

end Program

end Bindery
