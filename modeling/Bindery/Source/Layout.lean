/-
# Bindery.Source.Layout -- listings on one line or on several.

Declarations, signatures and calls are listings: items between an opening and a closing text,
sometimes inside a block.  A listing stands on one line if that line has at most a hundred bytes.
Otherwise each item has a line of its own, one level deeper, with a comma after it, so that an item
never shares its line and nothing but a long item makes such a line too wide.
-/

namespace Bindery.Source

/-! ## Indentation -/

/-- The margin of a level: four spaces for each. -/
def indent (level : Nat) : String :=
  String.ofList (List.replicate (4 * level) ' ')

/-- A line at a level. -/
def line (level : Nat) (text : String) : String :=
  indent level ++ text

/-! ## Listings -/

/-- The number of bytes that a listing on one line may have. -/
def maxWidth : Nat := 100

/-- The two texts that enclose a listing. -/
structure Block where
  opening : String
  closing : String
deriving Repr, DecidableEq

/-- Items between an opening and a closing text. -/
structure Listing where
  /-- The level of the listing. -/
  level : Nat
  /-- The block around the listing, if there is one. -/
  block : Option Block
  opening : String
  items : List String
  closing : String
deriving Repr, DecidableEq

namespace Listing

/-- The listing without its block, on one line. -/
def inner (l : Listing) : String :=
  l.opening ++ ", ".intercalate l.items ++ l.closing

/-- The listing on one line. -/
def oneLine (l : Listing) : String :=
  line l.level <|
    match l.block with
    | none => l.inner
    | some block => block.opening ++ " " ++ l.inner ++ " " ++ block.closing

/-- The listing at a level, without its block, with a line for each item. -/
def stackedAt (l : Listing) (level : Nat) : List String :=
  [line level l.opening] ++ (l.items.map fun item => line (level + 1) (item ++ ",")) ++
    [line level l.closing]

/-- The listing with a line for each item. -/
def stacked (l : Listing) : List String :=
  match l.block with
  | none => l.stackedAt l.level
  | some block =>
    [line l.level block.opening] ++ l.stackedAt (l.level + 1) ++ [line l.level block.closing]

/-- **`lines l`** -- the lines of a listing: one if it is not too wide. -/
def lines (l : Listing) : List String :=
  if l.oneLine.utf8ByteSize ≤ maxWidth then [l.oneLine] else l.stacked

end Listing

/-! ## Texts -/

/-- The text of some lines, each ended by a line feed. -/
def ofLines (lines : List String) : String :=
  String.join (lines.map (· ++ "\n"))

@[simp] theorem ofLines_nil : ofLines [] = "" := rfl

@[simp] theorem ofLines_cons (first : String) (others : List String) :
    ofLines (first :: others) = first ++ "\n" ++ ofLines others := by
  simp [ofLines]

@[simp] theorem ofLines_append (lines others : List String) :
    ofLines (lines ++ others) = ofLines lines ++ ofLines others := by
  simp [ofLines, String.join_append]

end Bindery.Source
