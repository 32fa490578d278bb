/-
# Bindery.Wrapper.Fault -- why a wrapping of a function cannot be derived.

A wrapping speaks about the arguments of its function by name.  Each fault is one way in which what
it says does not fit the function, and names the arguments concerned.  A unit adds one fault of its
own: two wrappers of one name.
-/
import Bindery.Catalog.Functions

namespace Bindery

/-- A use of an argument for which it must be a pointer. -/
inductive PointerUse where
  | output
  | mapped
  | source
deriving Repr, DecidableEq

/-- How messages call a use. -/
def PointerUse.text : PointerUse → String
  | .output => "an output"
  | .mapped => "a mapped argument"
  | .source => "a mapping source"

/-- A way in which a wrapping does not fit its function. -/
inductive WrappingFault where
  /-- There is a result convention, but no return value. -/
  | conventionWithoutReturn (convention : ResultConvention)
  /-- An output is not an argument. -/
  | outputUndeclared (argument : String)
  /-- An output is listed twice. -/
  | outputRepeated (argument : String)
  /-- An output is mapped too. -/
  | outputMapped (argument : String)
  /-- A mapped name is not an argument. -/
  | mappedUndeclared (argument : String)
  /-- An argument maps from one that stands after it, or from itself. -/
  | sourceLater (source argument : String)
  /-- An argument maps from a name that is not an argument. -/
  | sourceUndeclared (source argument : String)
  /-- An argument maps from one that is mapped itself. -/
  | sourceMapped (source argument : String)
  /-- An argument is no pointer and its use needs one. -/
  | notAPointer (argument : String) (use : PointerUse)
  /-- The pointees of an argument and its source differ, and no cast is asserted. -/
  | pointeesDiffer (argument source expected found : String)
  /-- A pointer that may be written through would alias a shared reference. -/
  | aliasesShared (argument source : String)
  /-- There are outputs and a return value, but no result convention. -/
  | returnUnhandled (wrapper : String)
  /-- The wrapping needs another raw declaration than an earlier wrapping of the function. -/
  | declarationConflict (wrapper : String)
deriving Repr, DecidableEq

/-- The text of a fault. -/
def WrappingFault.message : WrappingFault → String
  | .conventionWithoutReturn convention =>
    "result convention '" ++ convention.tag ++ "' requires a return value"
  | .outputUndeclared argument =>
    "unknown argument '" ++ argument ++ "': listed as an output but not declared"
  | .outputRepeated argument =>
    "argument '" ++ argument ++ "' has conflicting roles: listed as an output more than once"
  | .outputMapped argument =>
    "argument '" ++ argument ++ "' has conflicting roles: both mapped and listed as an output"
  | .mappedUndeclared argument => "unknown argument '" ++ argument ++ "': mapped but not declared"
  | .sourceLater source argument =>
    "unknown argument '" ++ source ++ "': '" ++ argument ++
      "' maps from an argument declared after it"
  | .sourceUndeclared source argument =>
    "unknown argument '" ++ source ++ "': '" ++ argument ++
      "' maps from an argument that is not declared"
  | .sourceMapped source argument =>
    "argument '" ++ argument ++ "' has conflicting roles: maps from '" ++ source ++
      "' which is itself mapped"
  | .notAPointer argument use =>
    "argument '" ++ argument ++ "' must be a pointer to be used as " ++ use.text
  | .pointeesDiffer argument source expected found =>
    "argument '" ++ argument ++ "' points to '" ++ expected ++ "' but maps from '" ++ source ++
      "' which points to '" ++
      found ++ "'"
  | .aliasesShared argument source =>
    "mutable argument '" ++ argument ++ "' cannot alias shared argument '" ++ source ++ "'"
  | .returnUnhandled wrapper =>
    "wrapper '" ++ wrapper ++
      "' returns outputs but has no result convention for the raw return value"
  | .declarationConflict wrapper =>
    "wrapper '" ++ wrapper ++
      "' needs a raw declaration that differs from the function's first wrapping"

/-- Why a unit cannot be derived. -/
inductive GenerationError where
  /-- A wrapping of a function does not fit it. -/
  | inFunction (function : String) (fault : WrappingFault)
  /-- Two wrappers of a unit share a name. -/
  | duplicateWrapper (unit wrapper : String)
deriving Repr, DecidableEq

/-- The text of a generation error. -/
def GenerationError.message : GenerationError → String
  | .inFunction function fault => function ++ ": " ++ fault.message
  | .duplicateWrapper unit wrapper =>
    unit ++ ": wrapper '" ++ wrapper ++ "' is defined more than once"

end Bindery
