/-
# Bindery.Project.PathTemplate -- the file of a unit from a template.

A template names a file for every variant through four placeholders.  They are filled one after
another, so a placeholder that the text of an earlier one brings in is filled as well.
-/
import Bindery.Catalog.Parameters
import Bindery.Text.Replace

namespace Bindery

/-- A placeholder of a template, with the text that a variant puts in its place. -/
structure Placeholder where
  mark : String
  text : Variant → String

/-- The placeholders in the order in which they are filled. -/
def Placeholder.all : List Placeholder :=
  [⟨"\x7bmodule\x7d", Variant.moduleName⟩, ⟨"\x7bscheme\x7d", Variant.scheme⟩,
    ⟨"\x7blevel\x7d", Variant.levelText⟩,
    ⟨"\x7bimpl\x7d", fun v => v.backend.name⟩]

/-- **`fillTemplate template v`** -- the file of a variant. -/
def fillTemplate (template : String) (v : Variant) : String :=
  Placeholder.all.foldl (fun text p => Text.replaceAll p.mark (p.text v) text) template

end Bindery
