/-
# Bindery.Header.Location -- where the reference header of a variant stands.

Reference headers stand in a tree of their own: a directory for each scheme and level, in it one for
each backend, and in that the header.
-/
import Bindery.Catalog.Parameters
import Bindery.Files.Path

namespace Bindery

/-- The name of a reference header. -/
def headerName : String := "api.h"

/-- **`headerPath v root`** -- the reference header of a variant below the root of the tree. -/
def Variant.headerPath (v : Variant) (root : Path) : Path :=
  root / v.feature / v.backend.name / headerName

end Bindery
