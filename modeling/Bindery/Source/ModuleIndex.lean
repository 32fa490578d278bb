/-
# Bindery.Source.ModuleIndex -- the index that lists the modules of all units.

The index has an entry for every selected variant: the gate of the variant's module, the module's
file unless the module's name gives it already, and the module itself.
-/
import Bindery.Source.Attribute
import Bindery.Source.Layout
import Bindery.Text.Literal
import Bindery.Unit.Assembly

namespace Bindery

open Source

/-- The file of a module that its name gives already. -/
def Source.moduleFile (name : String) : String :=
  name ++ ".rs"

/-- The line that names the file of a module, unless its name gives it already. -/
def Source.fileLines (name file : String) : List String :=
  if file = moduleFile name then [] else ["#[path = \"" ++ Text.stringLiteral file ++ "\"]"]

/-- The entry of a variant whose unit stands in `file`. -/
def Variant.indexLines (v : Variant) (file : String) : List String :=
  [gateLine v.predicates] ++ fileLines v.moduleName file ++ ["pub mod " ++ v.moduleName ++ ";"]

/-- **`moduleIndex p o fileOf`** -- the index of the selected variants, where `fileOf` gives each
unit's file relative to the index. -/
def ParameterCatalog.moduleIndex (p : ParameterCatalog) (o : Options) (fileOf : Variant → String) :
    String :=
  ofLines ((p.selected o).flatMap fun v => v.indexLines (fileOf v))

end Bindery
