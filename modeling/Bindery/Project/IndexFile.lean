/-
# Bindery.Project.IndexFile -- the module index of a project.

The index is shown, or written to a file.  The files that it names are seen from the directory of
the units, which is where an index that is written belongs.
-/
import Bindery.Project.Loading
import Bindery.Source.ModuleIndex

namespace Bindery.Project

open Program

/-- **`emitIndex project output`** -- shows the index, or writes it to a file. -/
def emitIndex (project : Located) (output : Option String) : Action Unit := do
  let manifest := project.manifest
  let parameters ← loadParameters (manifest.parametersPath project.root)
  let index := parameters.moduleIndex manifest.options manifest.unitFile
  match output with
  | none => say index
  | some file =>
    let path := project.root / file
    makeRoom path fun _ => .directory
    writeFile path index
    say ("Wrote module index (" ++ (parameters.selected manifest.options).length.repr ++
      " modules) → " ++ path.text ++ "\n")

end Bindery.Project
