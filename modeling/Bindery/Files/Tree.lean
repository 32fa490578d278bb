/-
# Bindery.Files.Tree -- file trees and what the operations on them do.

A file tree is what the root directory holds: under each name a file with its bytes or a directory
with entries of its own.  It has no links.  A path leads through the tree segment by segment: every
segment but the last must be found in a directory, two dots lead back, and a slash at the end asks
for a directory.
-/
import Bindery.Files.Path

namespace Bindery

/-! ## Errors -/

/-- Why an operation on files fails. -/
inductive FileError where
  | notFound
  | notADirectory
  | isADirectory
  | exists
  | nameTooLong
  /-- The path holds a NUL. -/
  | nulInPath
  /-- The bytes of a file are no text. -/
  | notUtf8
  /-- Any other cause, in the words of the system. -/
  | other (description : String)
deriving Repr, DecidableEq

/-- The text of an error. -/
def FileError.message : FileError → String
  | .notFound => "No such file or directory (os error 2)"
  | .notADirectory => "Not a directory (os error 20)"
  | .isADirectory => "Is a directory (os error 21)"
  | .exists => "File exists (os error 17)"
  | .nameTooLong => "File name too long (os error 36)"
  | .nulInPath => "file name contained an unexpected NUL byte"
  | .notUtf8 => "stream did not contain valid UTF-8"
  | .other description => description

/-! ## Trees -/

/-- What stands under a name. -/
inductive FileNode where
  | directory (entries : List (String × FileNode))
  | file (content : ByteArray)

/-- What a directory holds, by name. -/
abbrev Directory := List (String × FileNode)

/-- The names on the way from the root. -/
abbrev Location := List String

/-- What kind of thing stands at a path. -/
inductive FileKind where
  | directory
  | file
deriving Repr, DecidableEq

/-- The kind of a node. -/
def FileNode.kind : FileNode → FileKind
  | .directory _ => .directory
  | .file _ => .file

namespace Directory

/-- What the directory at a location holds, if a directory stands there. -/
def directoryAt? : Directory → Location → Option Directory
  | here, [] => some here
  | here, name :: rest =>
    match here.lookup name with
    | some (.directory inner) => directoryAt? inner rest
    | _ => none

/-- The bytes of the file at a location, if a file stands there. -/
def contentAt? : Directory → Location → Option ByteArray
  | _, [] => none
  | here, name :: rest =>
    match here.lookup name with
    | some (.directory inner) => contentAt? inner rest
    | some (.file content) => if rest = [] then some content else none
    | none => none

/-- The directory with another node under a name. -/
def set (here : Directory) (name : String) (node : FileNode) : Directory :=
  (name, node) :: here.filter (·.1 != name)

/-- The directory with another node at a location.  Nothing changes where no directory stands above
the location. -/
def put : Directory → Location → FileNode → Directory
  | here, [], _ => here
  | here, [name], node => here.set name node
  | here, name :: rest, node =>
    match here.lookup name with
    | some (.directory inner) => here.set name (.directory (put inner rest node))
    | _ => here

/-- What stands under a name after a node has been set. -/
theorem lookup_set (here : Directory) (name : String) (node : FileNode) (other : String) :
    (here.set name node).lookup other = if other = name then some node else here.lookup other := by
  show List.lookup other ((name, node) :: here.filter (·.1 != name)) = _
  by_cases h : other = name
  · subst h
    simp
  · rw [if_neg h, List.lookup_cons, beq_eq_false_iff_ne.2 h]
    show List.lookup other (here.filter (·.1 != name)) = here.lookup other
    induction here with
    | nil => rfl
    | cons entry entries ih =>
      obtain ⟨key, found⟩ := entry
      by_cases hk : key = name
      · have hne : (other == key) = false := beq_eq_false_iff_ne.2 (hk ▸ h)
        rw [List.filter_cons_of_neg (by simp [hk]), ih, List.lookup_cons, hne]
      · rw [List.filter_cons_of_pos (by simp [hk]), List.lookup_cons, List.lookup_cons, ih]

/-- A way in two parts. -/
theorem directoryAt?_append (here : Directory) (first second : Location) :
    here.directoryAt? (first ++ second) = (here.directoryAt? first).bind
        (directoryAt? · second) := by
  induction first generalizing here with
  | nil => rfl
  | cons name rest ih =>
    simp only [List.cons_append, directoryAt?]
    split
    · exact ih _
    · rfl

/-- A node is put below a directory by putting it into what stands under the first name. -/
theorem put_cons (here : Directory) (name : String) {inner : Directory}
    (h : here.lookup name = some (.directory inner))
    {rest : Location} (hr : rest ≠ []) (node : FileNode) :
    here.put (name :: rest) node = here.set name (.directory (inner.put rest node)) := by
  cases rest with
  | nil => exact absurd rfl hr
  | cons next more => simp [put, h]

/-- The files after a file has been put where no directory stands. -/
theorem contentAt?_put_file {here : Directory} {above : Location} {entries : Directory}
    (found : here.directoryAt? above = some entries) {name : String}
    (free : ∀ inner, entries.lookup name ≠ some (.directory inner)) (content : ByteArray)
    (other : Location) :
    (here.put (above ++ [name]) (.file content)).contentAt? other
      = if other = above ++ [name] then some content else here.contentAt? other := by
  induction above generalizing here other with
  | nil =>
    cases found
    cases other with
    | nil => simp [contentAt?]
    | cons first rest =>
      simp only [List.nil_append, put, contentAt?, lookup_set, List.cons.injEq]
      by_cases hf : first = name
      · subst hf
        by_cases hr : rest = []
        · simp [hr]
        · rw [if_pos rfl, if_neg (fun h => hr h.2)]
          simp only [if_neg hr]
          split
          · next inner h => exact absurd h (free inner)
          · rfl
          · rfl
      · rw [if_neg hf, if_neg (fun h => hf h.1)]
  | cons key above ih =>
    simp only [directoryAt?] at found
    split at found
    · next inner h =>
      rw [List.cons_append, put_cons here key h (by simp)]
      cases other with
      | nil => simp [contentAt?]
      | cons first rest =>
        simp only [contentAt?, lookup_set, List.cons.injEq]
        by_cases hf : first = key
        · subst hf
          rw [if_pos rfl, h]
          simp only [ih found, true_and]
        · rw [if_neg hf, if_neg (fun h => hf h.1)]
    · cases found

/-- The files after an empty directory has been put where nothing stands. -/
theorem contentAt?_put_directory {here : Directory} {above : Location} {entries : Directory}
    (found : here.directoryAt? above = some entries) {name : String}
    (free : entries.lookup name = none) (other : Location) :
    (here.put (above ++ [name]) (.directory [])).contentAt? other = here.contentAt? other := by
  induction above generalizing here other with
  | nil =>
    cases found
    cases other with
    | nil => simp [contentAt?]
    | cons first rest =>
      simp only [List.nil_append, put, contentAt?, lookup_set]
      by_cases hf : first = name
      · subst hf
        rw [if_pos rfl, free]
        cases rest <;> simp [contentAt?]
      · rw [if_neg hf]
  | cons key above ih =>
    simp only [directoryAt?] at found
    split at found
    · next inner h =>
      rw [List.cons_append, put_cons here key h (by simp)]
      cases other with
      | nil => simp [contentAt?]
      | cons first rest =>
        simp only [contentAt?, lookup_set]
        by_cases hf : first = key
        · subst hf
          rw [if_pos rfl, h]
          exact ih found rest
        · rw [if_neg hf]
    · cases found

/-- Directories stay directories when a node is put where no directory stands. -/
theorem isSome_directoryAt?_put {here : Directory} {above : Location} {entries : Directory}
    (found : here.directoryAt? above = some entries) {name : String}
    (free : ∀ inner, entries.lookup name ≠ some (.directory inner)) (node : FileNode)
    {other : Location}
    (h : (here.directoryAt? other).isSome) :
    ((here.put (above ++ [name]) node).directoryAt? other).isSome := by
  induction above generalizing here other with
  | nil =>
    cases found
    cases other with
    | nil => rfl
    | cons first rest =>
      simp only [List.nil_append, put, directoryAt?, lookup_set] at h ⊢
      by_cases hf : first = name
      · subst hf
        split at h
        · next inner hlookup => exact absurd hlookup (free inner)
        · cases h
      · rw [if_neg hf]
        exact h
  | cons key above ih =>
    simp only [directoryAt?] at found
    split at found
    · next inner hkey =>
      rw [List.cons_append, put_cons here key hkey (by simp)]
      cases other with
      | nil => rfl
      | cons first rest =>
        simp only [directoryAt?, lookup_set] at h ⊢
        by_cases hf : first = key
        · subst hf
          rw [if_pos rfl]
          rw [hkey] at h
          exact ih found h
        · rw [if_neg hf]
          exact h
    · cases found

end Directory

/-- The directory at the root.  There are no links, so each file stands at one location. -/
structure FileTree where
  root : Directory

namespace FileTree

/-- The tree with nothing below the root. -/
def empty : FileTree := ⟨[]⟩

/-- The tree with another node at a location. -/
def put (t : FileTree) (location : Location) (node : FileNode) : FileTree :=
  ⟨t.root.put location node⟩

/-! ## Following paths -/

/-- The number of bytes that a name may have. -/
def maxNameBytes : Nat := 255

/-- The number of bytes that a path may have. -/
def maxPathBytes : Nat := 4095

/-- Refuses paths that no system takes. -/
def checkText (p : Path) : Except FileError Unit :=
  if p.text.toList.contains '\x00' then .error .nulInPath
  else if p.text.utf8ByteSize ≤ maxPathBytes then .ok ()
  else .error .nameTooLong

/-- Refuses names that no directory takes. -/
def checkName (name : String) : Except FileError Unit :=
  if name.utf8ByteSize ≤ maxNameBytes then .ok () else .error .nameTooLong

/-- A directory of a tree. -/
structure Place (t : FileTree) where
  /-- The names on the way from the root, the last one first. -/
  way : List String
  /-- What the directory holds. -/
  entries : Directory
  found : t.root.directoryAt? way.reverse = some entries

namespace Place

/-- The root. -/
def top (t : FileTree) : Place t := ⟨[], t.root, rfl⟩

/-- The names on the way from the root. -/
def location {t : FileTree} (place : Place t) : Location :=
  place.way.reverse

/-- Above a directory there is a directory. -/
theorem isSome_above {t : FileTree} (place : Place t) :
    (t.root.directoryAt? place.way.tail.reverse).isSome := by
  obtain ⟨way, entries, found⟩ := place
  cases way with
  | nil => rfl
  | cons name above =>
    rw [List.reverse_cons, Directory.directoryAt?_append] at found
    obtain ⟨outer, h, _⟩ := Option.bind_eq_some_iff.1 found
    simp [h]

/-- The directory above.  The root lies in itself. -/
def up {t : FileTree} (place : Place t) : Place t :=
  match h : t.root.directoryAt? place.way.tail.reverse with
  | some entries => ⟨place.way.tail, entries, h⟩
  | none => absurd place.isSome_above (by simp [h])

/-- **`place.enter segment`** -- the directory to which a segment leads. -/
def enter {t : FileTree} (place : Place t) (segment : String) : Except FileError (Place t) := do
  if segment = "" ∨ segment = "." then return place
  if segment = ".." then return place.up
  checkName segment
  match h : place.entries.lookup segment with
  | some (.directory inner) =>
    return ⟨segment :: place.way,
      inner, by simp [Directory.directoryAt?_append, place.found, Directory.directoryAt?, h]⟩
  | some (.file _) => throw .notADirectory
  | none => throw .notFound

/-- **`place.find segment`** -- what stands where a segment leads. -/
def find {t : FileTree} (place : Place t) (segment : String) : Except FileError FileNode := do
  if segment = "" ∨ segment = "." then return .directory place.entries
  if segment = ".." then return .directory place.up.entries
  checkName segment
  match place.entries.lookup segment with
  | some node => return node
  | none => throw .notFound

end Place

/-- **`enter t segments`** -- the directory to which some segments lead from the root. -/
def enter (t : FileTree) (segments : List String) : Except FileError (Place t) :=
  segments.foldlM Place.enter (Place.top t)

/-- The segments of a path before its last one, and its last one. -/
def splitLast (segments : List String) : List String × String :=
  (segments.dropLast, segments.getLast?.getD "")

/-- What stands at an absolute path. -/
def find (t : FileTree) (p : Path) : Except FileError FileNode := do
  checkText p
  let (before, last) := splitLast p.segments
  (← t.enter before).find last

/-! ## Looking -/

/-- **`kind? t p`** -- what kind of thing stands at a path, if anything does. -/
def kind? (t : FileTree) (p : Path) : Option FileKind :=
  match t.find p with
  | .ok node => some node.kind
  | .error _ => none

/-- **`read t p`** -- the text of the file at a path. -/
def read (t : FileTree) (p : Path) : Except FileError String := do
  match ← t.find p with
  | .directory _ => .error .isADirectory
  | .file content =>
    match String.fromUTF8? content with
    | some text => .ok text
    | none => .error .notUtf8

/-! ## Changing -/

/-- The segments of a path without the empty ones at its end. -/
def closedSegments (p : Path) : List String :=
  (p.segments.reverse.dropWhile (· == "")).reverse

/-- Whether a segment leads to a directory whatever the tree holds. -/
def isDots (segment : String) : Bool :=
  segment == "" || segment == "." || segment == ".."

/-- **`makeDirectory t p`** -- makes a directory in a directory that is there. -/
def makeDirectory (t : FileTree) (p : Path) : Except FileError FileTree := do
  checkText p
  let (before, last) := splitLast (closedSegments p)
  let parent ← t.enter before
  if isDots last then .error .exists
  else
    checkName last
    match parent.entries.lookup last with
    | some _ => .error .exists
    | none => .ok (t.put (parent.location ++ [last]) (.directory []))

/-- **`write t p content`** -- makes a file or replaces its content.  A path that ends with a slash
or with dots names no file. -/
def write (t : FileTree) (p : Path) (content : ByteArray) : Except FileError FileTree := do
  checkText p
  let (before, last) := splitLast (closedSegments p)
  let parent ← t.enter before
  if isDots last || Path.endsOpen p.text then .error .isADirectory
  else
    checkName last
    match parent.entries.lookup last with
    | some (.directory _) => .error .isADirectory
    | _ => .ok (t.put (parent.location ++ [last]) (.file content))

end FileTree

end Bindery
