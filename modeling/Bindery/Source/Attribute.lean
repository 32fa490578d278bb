/-
# Bindery.Source.Attribute -- the attribute that gates an item of generated source.

An item is built when all of its predicates hold.
-/

namespace Bindery.Source

/-- **`gate ps`** -- the condition that all predicates hold.  A single predicate stands for itself.
-/
def gate : List String → String
  | [predicate] => "cfg(" ++ predicate ++ ")"
  | predicates => "cfg(all(" ++ ", ".intercalate predicates ++ "))"

/-- The line that gates what follows it. -/
def gateLine (predicates : List String) : String :=
  "#[" ++ gate predicates ++ "]"

end Bindery.Source
