/-
# Bindery.Files.Path -- paths as texts.

A path is kept as it is written, because messages show it so.  Its segments are the texts between
its slashes; a segment is named unless it is empty or a single dot.  Joining keeps the text of both
sides, and an absolute right side replaces the left one.
-/

namespace Bindery

/-- A path, as it is written. -/
structure Path where
  text : String
deriving Repr, DecidableEq

namespace Path

/-! ## Joining -/

/-- Whether a text is an absolute path. -/
def isAbsolute (text : String) : Bool :=
  text.toList.head? == some '/'

/-- Whether a text ends with a slash. -/
def endsOpen (text : String) : Bool :=
  text.toList.getLast? == some '/'

/-- **`join base text`** -- the path `text` as seen from `base`.  No second slash is put between
them. -/
def join (base : Path) (text : String) : Path :=
  if isAbsolute text then ⟨text⟩
  else if base.text.isEmpty || endsOpen base.text then ⟨base.text ++ text⟩
  else ⟨base.text ++ "/" ++ text⟩

instance : HDiv Path String Path := ⟨join⟩

/-! ## Segments and parents -/

/-- The texts between the slashes. -/
def segments (p : Path) : List String :=
  (p.text.toList.splitOn '/').map String.ofList

/-- Whether a segment names something: the empty segment and the single dot do not. -/
def isNamed (segment : String) : Bool :=
  segment != "" && segment != "."

/-- The absolute path of some segments, given from the last to the first, without the unnamed
segments at its end. -/
def ofReversed (segments : List String) : Path :=
  match segments.dropWhile (!isNamed ·) with
  | [] => ⟨"/"⟩
  | kept => ⟨"/".intercalate kept.reverse⟩

/-- What comes before each named segment, where segments are given from the last to the first. -/
def beforeNamed : List String → List (List String)
  | [] => []
  | segment :: before =>
    if isNamed segment then before :: beforeNamed before else beforeNamed before

/-- The segments of the paths that an absolute path lies in, nearest path first, each from the last
segment to the first. -/
def segmentsAbove (p : Path) : List (List String) :=
  beforeNamed p.segments.reverse

/-- **`parents p`** -- the paths that an absolute path lies in, nearest first. -/
def parents (p : Path) : List Path :=
  p.segmentsAbove.map ofReversed

/-- The path that an absolute path lies in. -/
def parent? (p : Path) : Option Path :=
  p.segmentsAbove.head?.map ofReversed

example : (⟨"/a//b/./c/"⟩ : Path).parents = [⟨"/a//b"⟩, ⟨"/a"⟩, ⟨"/"⟩] := by decide +kernel

end Path

end Bindery
