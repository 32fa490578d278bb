/-
# Bindery.Wrapper.ArgumentTable -- the role of every argument under one wrapping.

Under a wrapping an argument of a foreign function is plain, and then a parameter of the wrapper; or
an output, a buffer that the wrapper allocates and returns; or mapped, and then it has no storage of
its own but reuses that of an argument before it.  The table lists the arguments in order with their
roles and with the types that the raw declaration binds them by.  That is the catalog's type, except
that a pointer into the storage of an output points to the output's type.

Names are checked first; then the arguments are read from left to right, so a source is always found
among the rows before it.
-/
import Bindery.Wrapper.Fault

namespace Bindery

/-! ## Rows -/

/-- The role of an argument. -/
inductive Role where
  /-- A parameter of the wrapper, passed through. -/
  | plain
  /-- Reuses the storage of the argument in row `source`; with `cast`, through a cast to the bound
  type. -/
  | mapped (source : Nat) (cast : Bool)
  /-- A buffer that is uninitialised before the call and returned after it. -/
  | output
deriving Repr, DecidableEq

/-- What is known about one argument. -/
structure Row where
  name : String
  /-- The type in the catalog. -/
  declared : ForeignType
  role : Role
  /-- The type in the raw declaration. -/
  binding : ForeignType
deriving Repr, DecidableEq

namespace Row

/-- The wrapper's parameter for the argument, if there is one. -/
def param? (r : Row) : Option ParamType :=
  match r.role with
  | .plain => some r.declared.toParam
  | _ => none

/-- The type that the wrapper returns for the argument, if it returns it. -/
def returned? (r : Row) : Option String :=
  match r.role with
  | .output => r.declared.pointee?
  | _ => none

/-- Whether the argument reuses the storage of another. -/
def isMapped (r : Row) : Bool :=
  match r.role with
  | .mapped _ _ => true
  | _ => false

end Row

/-- The rows of a function's arguments in order, and the names of the outputs in the order in which
they are returned. -/
structure ArgumentTable where
  rows : List Row
  returned : List String
deriving Repr, DecidableEq

namespace ArgumentTable

/-- The row of a name. -/
def row? (t : ArgumentTable) (name : String) : Option Row :=
  t.rows.find? (·.name == name)

/-- The rows of the plain arguments, in order. -/
def plain (t : ArgumentTable) : List Row :=
  t.rows.filter (·.role == .plain)

/-- The rows of the outputs, in the order in which they are returned. -/
def outputs (t : ArgumentTable) : List Row :=
  t.returned.filterMap t.row?

/-- The row whose storage an argument uses: its own, unless it is mapped. -/
def storage (t : ArgumentTable) (r : Row) : Row :=
  match r.role with
  | .mapped source _ => t.rows.getD source r
  | _ => r

end ArgumentTable

/-! ## Names -/

namespace Wrapping

/-- Checks the outputs of a wrapping one after another; `seen` holds the outputs before them. -/
def checkOutputs (f : ForeignFunction) (w : Wrapping) :
    List String → List String → Except WrappingFault Unit
  | _, [] => .ok ()
  | seen, name :: rest =>
    if !f.declares name then .error (.outputUndeclared name)
    else if name ∈ seen then .error (.outputRepeated name)
    else if (w.sources.find? name).isSome then .error (.outputMapped name)
    else checkOutputs f w (name :: seen) rest

/-- Checks the names of the mapped arguments one after another. -/
def checkMapped (f : ForeignFunction) : List String → Except WrappingFault Unit
  | [] => .ok ()
  | name :: rest => if f.declares name then checkMapped f rest else .error (.mappedUndeclared name)

/-- A result convention needs a return value. -/
def checkConvention (f : ForeignFunction) (w : Wrapping) : Except WrappingFault Unit :=
  match w.convention, f.returns with
  | some convention, none => .error (.conventionWithoutReturn convention)
  | _, _ => .ok ()

/-- Checks every name that a wrapping gives. -/
def checkNames (f : ForeignFunction) (w : Wrapping) : Except WrappingFault Unit := do
  checkConvention f w
  checkOutputs f w [] w.outputs
  checkMapped f w.sources.keys

/-! ## Arguments -/

/-- The row of an argument that maps from `source`, where `above` holds the rows before it. -/
def mappedRow (f : ForeignFunction) (w : Wrapping) (above : List Row) (a : Argument)
    (source : String) :
    Except WrappingFault Row := do
  let some position := above.findIdx? (·.name == source)
    | throw (if f.declares source then .sourceLater source a.name else
        .sourceUndeclared source a.name)
  let some row := above[position]?
    | throw (.sourceUndeclared source a.name)
  if row.isMapped then
    throw (.sourceMapped source a.name)
  let some pointee := a.type.pointee?
    | throw (.notAPointer a.name .mapped)
  let some sourcePointee := row.declared.pointee?
    | throw (.notAPointer source .source)
  if w.pointees = .identical ∧ pointee ≠ sourcePointee then
    throw (.pointeesDiffer a.name source pointee sourcePointee)
  if a.type.isExclusive && row.role == .plain && !row.declared.isExclusive then
    throw (.aliasesShared a.name source)
  let binding :=
    if row.role = .output then (a.type.withPointee? sourcePointee).getD a.type else a.type
  return ⟨a.name, a.type, .mapped position (w.pointees = .asserted), binding⟩

/-- The row of an argument, where `above` holds the rows before it. -/
def row (f : ForeignFunction) (w : Wrapping) (above : List Row) (a : Argument) :
    Except WrappingFault Row :=
  if w.outputs.contains a.name then
    match a.type with
    | .value _ => .error (.notAPointer a.name .output)
    | .pointer _ _ => .ok ⟨a.name, a.type, .output, a.type⟩
  else
    match w.sources.find? a.name with
    | some source => mappedRow f w above a source
    | none => .ok ⟨a.name, a.type, .plain, a.type⟩

/-- Adds the rows of arguments to the rows before them, from left to right. -/
def addRows (f : ForeignFunction) (w : Wrapping) :
    List Row → List Argument → Except WrappingFault (List Row)
  | above, [] => .ok above
  | above, a :: rest => do
    let next ← row f w above a
    addRows f w (above ++ [next]) rest

/-- **`table f w`** -- the argument table of a function under a wrapping. -/
def table (f : ForeignFunction) (w : Wrapping) : Except WrappingFault ArgumentTable := do
  checkNames f w
  let rows ← addRows f w [] f.arguments
  return ⟨rows, w.outputs⟩

end Wrapping

end Bindery
