/-
# Bindery.Toml.Table -- TOML values and the rules for building tables.

Tables are built piece by piece.  A table can be opened once by a header, be implied by the header
of a table below it, be created by a dotted key, or be written inline; which of these decides what
may be added to it later.  Adding anything goes down a path of keys, creates the tables that are
missing on the way, and is refused where a key is taken or a table is closed.
-/

namespace Bindery.Toml

/-! ## Values -/

/-- How a table has come about. -/
inductive Form where
  /-- Opened by a header. -/
  | header
  /-- Implied by the header of a table below it. -/
  | implied
  /-- Created by a dotted key. -/
  | dotted
  /-- Written inline. -/
  | inline
deriving Repr, DecidableEq

/-- A value.  Numbers and dates are not kept. -/
inductive Value where
  | string (text : String)
  | boolean (value : Bool)
  | number
  | dateTime
  | array (items : List Value)
  | table (form : Form) (entries : List (String × Value))
  /-- An array of tables, each opened by a header of its own. -/
  | tables (elements : List (List (String × Value)))

/-- The entries of a table, in order. -/
abbrev Entries := List (String × Value)

/-! ## Edits -/

/-- A change of a table, which depends on how the table has come about and may be refused. -/
abbrev Edit := Form → Entries → Option Entries

/-- Changes the value under a key, or adds one. -/
def update (key : String) (change : Option Value → Option Value) : Entries → Option Entries
  | [] => do return [(key, ← change none)]
  | (name, value) :: rest =>
    if name = key then do return (name, ← change (some value)) :: rest
    else do return (name, value) :: (← update key change rest)

/-- Changes the table that a value is.  The change of an array of tables is one of its last
element.  Inline tables are closed, and a dotted key does not go through a table with a header. -/
def editValue (created : Form) (edit : Edit) : Option Value → Option Value
  | none => (edit created []).map (.table created)
  | some (.table form entries) =>
    if form = .inline ∨ (created = .dotted ∧ form = .header) then none
    else (edit form entries).map (.table form)
  | some (.tables elements) =>
    match elements.getLast? with
    | some last => (edit .header last).map fun entries => .tables (elements.dropLast ++ [entries])
    | none => none
  | some _ => none

/-- **`editAt created path edit`** -- the change of the table that a path leads to.  Missing tables
come about as `created` says. -/
def editAt (created : Form) : List String → Edit → Edit
  | [], edit => edit
  | key :: path, edit => fun _ entries =>
      update key (editValue created (editAt created path edit)) entries

/-- Adds a value under a key that is free.  A dotted key adds to tables of dotted keys alone, a
plain key to all others. -/
def addNew (dotted : Bool) (key : String) (value : Value) : Edit := fun form entries =>
  if decide (form = .dotted) = dotted ∧ (entries.lookup key).isNone then
    some (entries ++ [(key, value)]) else none

/-- **`define path value`** -- adds a value under a dotted key. -/
def define (path : List String) (value : Value) : Edit :=
  match path.getLast? with
  | some key => editAt .dotted path.dropLast (addNew (1 < path.length) key value)
  | none => fun _ _ => none

/-! ## Sections -/

/-- A key and its value. -/
abbrev Pair := List String × Value

/-- Adds some pairs to a table with a header. -/
def fill (pairs : List Pair) (entries : Entries) : Option Entries :=
  pairs.foldlM (fun entries pair => define pair.1 pair.2 .header entries) entries

/-- What pairs are added to. -/
inductive Header where
  /-- The document itself. -/
  | root
  /-- The table of a path. -/
  | table (path : List String)
  /-- A new element of the array of tables of a path. -/
  | element (path : List String)

/-- Opens a table with some pairs.  It must not be there yet, unless it is implied. -/
def openTable (pairs : List Pair) : Option Value → Option Value
  | none => (fill pairs []).map (.table .header)
  | some (.table .implied entries) => (fill pairs entries).map (.table .header)
  | some _ => none

/-- Adds an element with some pairs to an array of tables. -/
def addElement (pairs : List Pair) : Option Value → Option Value
  | none => (fill pairs []).map fun entries => .tables [entries]
  | some (.tables elements) => (fill pairs []).map fun entries => .tables (elements ++ [entries])
  | some _ => none

/-- Changes what stands under the last key of the path of a header. -/
def editHeader (path : List String) (change : Option Value → Option Value) (entries : Entries) :
    Option Entries :=
  match path.getLast? with
  | some key =>
    editAt .implied path.dropLast (fun _ found => update key change found) .header entries
  | none => none

/-- **`Header.apply h pairs entries`** -- the document after a section of pairs. -/
def Header.apply (pairs : List Pair) (entries : Entries) : Header → Option Entries
  | .root => fill pairs entries
  | .table path => editHeader path (openTable pairs) entries
  | .element path => editHeader path (addElement pairs) entries

end Bindery.Toml
