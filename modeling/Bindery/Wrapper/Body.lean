/-
# Bindery.Wrapper.Body -- the statements of a wrapper.

A wrapper allocates a buffer for every output, calls the foreign function once, gives up if the raw
value means failure, marks the buffers as initialised and returns.  The statements are data; how
they are spelled is decided elsewhere.
-/
import Bindery.Wrapper.Signature

namespace Bindery

/-! ## Statements -/

/-- How the storage of an argument is handed to the call. -/
inductive Passing where
  /-- By value. -/
  | value
  /-- As a pointer made from a reference. -/
  | borrow (access : Access)
  /-- As a pointer into an uninitialised buffer. -/
  | uninit
deriving Repr, DecidableEq

/-- An argument of the call. -/
structure CallArgument where
  /-- The variable whose storage is passed. -/
  storage : String
  passing : Passing
  /-- The type that the pointer is cast to. -/
  cast : Option ForeignType
deriving Repr, DecidableEq

/-- What a wrapper ends with. -/
inductive Ending where
  /-- The raw value. -/
  | raw
  /-- The outputs of these names. -/
  | outputs (names : List String)
  /-- Success with the outputs of these names. -/
  | success (names : List String)
deriving Repr, DecidableEq

/-- A statement of a wrapper. -/
inductive Statement where
  /-- Declares an uninitialised buffer. -/
  | allocate (name type : String)
  /-- Calls the foreign function; if `captured`, its raw value is kept. -/
  | call (symbol : String) (arguments : List CallArgument) (captured : Bool)
  /-- Returns failure unless the raw value is zero. -/
  | failUnlessZero
  /-- From here on the buffer counts as initialised, and the name stands for its content. -/
  | assumeInit (name : String)
  | finish (ending : Ending)
deriving Repr, DecidableEq

/-! ## Bodies -/

/-- How storage of a type of its own is passed. -/
def ForeignType.passing : ForeignType → Passing
  | .value _ => .value
  | .pointer access _ => .borrow access

namespace ArgumentTable

/-- The argument of the call for a row: its own storage or its source's, which is a buffer if it is
an output. -/
def callArgument (t : ArgumentTable) (r : Row) : CallArgument :=
  let source := t.storage r
  { storage := source.name
    passing := if source.role = .output then .uninit else r.binding.passing
    cast := if r.role matches .mapped _ true then some r.binding else none }

/-- The statements that look at the raw value. -/
def checks : ReturnShape → List Statement
  | .result _ .zeroIsOk => [.failUnlessZero]
  | _ => []

/-- Whether the raw value of the call is needed. -/
def captures : ReturnShape → Bool
  | .raw _ => true
  | .result _ _ => true
  | _ => false

/-- The last statement, if there is anything to return. -/
def endings (outputs : List String) : ReturnShape → List Statement
  | .unit => []
  | .raw _ => [.finish .raw]
  | .outputs _ => [.finish (.outputs outputs)]
  | .result _ _ => [.finish (.success outputs)]

/-- **`body t symbol returns`** -- the statements of a wrapper that calls `symbol` and returns as
`returns` says. -/
def body (t : ArgumentTable) (symbol : String) (returns : ReturnShape) : List Statement :=
  let outputs := t.outputs.map (·.name)
  (t.outputs.filterMap fun r => r.returned?.map (.allocate r.name)) ++
    [.call symbol (t.rows.map t.callArgument) (captures returns)] ++
    checks returns ++
    outputs.map .assumeInit ++
    endings outputs returns

end ArgumentTable

end Bindery
