/-
# Bindery.Catalog.Error -- why a catalog is refused.

A catalog is refused because its text does not have the shape of a catalog, or because of the first
entry that breaks a rule. Each cause names the entry and the rule; the wording is in
`CatalogError.message` alone.
-/
import Bindery.ForeignType

namespace Bindery

/-- A rule that a catalog breaks. -/
inductive CatalogError where
  /-- The text is no document of the required shape. -/
  | malformed
  /-- The type of an argument cannot be read. -/
  | argumentType (function argument : String) (cause : TypeError)
  /-- The return type cannot be read. -/
  | returnType (function : String) (cause : TypeError)
  /-- A function has the empty name. -/
  | unnamedFunction
  /-- A function gives one wrapping and a list of wrappings. -/
  | bothWrappingForms (function : String)
  /-- Two arguments of a function share a name. -/
  | duplicateArgument (function argument : String)
  /-- Two functions share a name. -/
  | duplicateFunction (function : String)
  /-- No result convention has the tag. -/
  | unknownConvention (function tag : String)
  /-- The scheme has the empty name. -/
  | unnamedScheme
  /-- Two parameter sets share a security level. -/
  | repeatedLevel (level : Nat)
deriving Repr, DecidableEq

/-- The text of a catalog error. -/
def CatalogError.message : CatalogError → String
  | .malformed => "JSON parse error"
  | .argumentType function argument cause =>
    "invalid type: " ++ function ++ "::" ++ argument ++ ": " ++ cause.message
  | .returnType function cause => "invalid type: " ++ function ++ " return: " ++ cause.message
  | .unnamedFunction => "invalid catalog: function name is required"
  | .bothWrappingForms function =>
    "invalid catalog: function '" ++ function ++ "' has both 'wrapping' and 'wrappings'"
  | .duplicateArgument function argument =>
    "function '" ++ function ++ "' declares argument '" ++ argument ++ "' more than once"
  | .duplicateFunction function => "function '" ++ function ++ "' is declared more than once"
  | .unknownConvention function tag =>
    "function '" ++ function ++ "': unknown result convention '" ++ tag ++ "'"
  | .unnamedScheme => "invalid catalog: scheme must not be empty"
  | .repeatedLevel level => "invalid catalog: security level " ++ level.repr ++ " listed twice"

end Bindery
