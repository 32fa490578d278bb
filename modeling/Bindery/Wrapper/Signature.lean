/-
# Bindery.Wrapper.Signature -- the raw declaration and the wrapper's signature.

Both are read off the argument table.  The raw declaration repeats the function as it is linked,
with every argument under its bound type.  The wrapper shows the plain arguments alone, and returns
what the call leaves: nothing, the raw value, the outputs, or the outputs on success and nothing on
failure where a result convention says which raw values mean success.
-/
import Bindery.Wrapper.ArgumentTable

namespace Bindery

/-! ## Declarations -/

/-- A foreign function as it is linked. -/
structure Declaration where
  symbol : String
  params : List (String × ForeignType)
  returns : Option ForeignType
deriving Repr, DecidableEq

/-- The declaration of a function whose symbols start with `stem`. -/
def ArgumentTable.declaration (t : ArgumentTable) (stem : String) (f : ForeignFunction) :
    Declaration :=
  ⟨stem ++ f.name, t.rows.map fun r => (r.name, r.binding), f.returns⟩

/-! ## Signatures -/

/-- What a wrapper returns. -/
inductive ReturnShape where
  /-- Nothing. -/
  | unit
  /-- The raw value of the call. -/
  | raw (type : ForeignType)
  /-- The outputs, of these types. -/
  | outputs (types : List String)
  /-- On success the outputs, of these types, and on failure nothing; the convention tells which it
  is. -/
  | result (types : List String) (convention : ResultConvention)
deriving Repr, DecidableEq

/-- The signature of a wrapper. -/
structure Signature where
  name : String
  description : Option String
  params : List (String × ParamType)
  returns : ReturnShape
deriving Repr, DecidableEq

namespace ArgumentTable

/-- The parameters of the wrapper: the plain arguments in order. -/
def wrapperParams (t : ArgumentTable) : List (String × ParamType) :=
  t.plain.filterMap fun r => r.param?.map fun type => (r.name, type)

/-- The types of the outputs, in the order in which they are returned. -/
def outputTypes (t : ArgumentTable) : List String :=
  t.outputs.filterMap Row.returned?

/-- What a wrapper returns, from the convention, the raw return type and the types of the outputs.
Outputs may be read only after the raw value has been looked at, so outputs and a raw value need a
convention. -/
def returnShape (wrapper : String) (outputs : List String) :
    Option ResultConvention → Option ForeignType → Except WrappingFault ReturnShape
  | some convention, some _ => .ok (.result outputs convention)
  | some convention, none => .error (.conventionWithoutReturn convention)
  | none, some type =>
    if outputs.isEmpty then .ok (.raw type) else .error (.returnUnhandled wrapper)
  | none, none => if outputs.isEmpty then .ok .unit else .ok (.outputs outputs)

/-- **`signature t f w`** -- the signature of the wrapper that a wrapping of the function gives. -/
def signature (t : ArgumentTable) (f : ForeignFunction) (w : Wrapping) :
    Except WrappingFault Signature := do
  let name := f.wrapperName w
  let returns ← returnShape name t.outputTypes w.convention f.returns
  return ⟨name, w.description, t.wrapperParams, returns⟩

end ArgumentTable

end Bindery
