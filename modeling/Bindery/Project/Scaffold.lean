/-
# Bindery.Project.Scaffold -- starting a project.

A project is started only where no manifest is seen.  Catalogs that are seen there already are kept.
-/
import Bindery.Project.Loading
import Bindery.Project.Starter

namespace Bindery.Project

open Program

/-- Writes a starter file unless something stands in its place. -/
def provide (path : Path) (text : String) : Action Unit := do
  if (← kindOf path).isSome then report .info ("keeping existing " ++ path.text)
  else
    makeRoom path fun _ => .directory
    writeFile path text

/-- **`start root`** -- starts a project in a directory. -/
def start (root : Path) : Action Unit := do
  let file := root / Manifest.fileName
  if (← kindOf file).isSome then fail (.manifestExists file)
  else
    orFail (.creating root) (← makeDirectories root)
    writeFile file Starter.manifestText
    provide (Starter.manifest.functionsPath root) Starter.functionsText
    provide (Starter.manifest.parametersPath root) Starter.parametersText
    say ("Created " ++ file.text ++ "\n")
    say ("  " ++ Starter.manifest.catalog.functions ++ "\n")
    say ("  " ++ Starter.manifest.catalog.parameters ++ "\n")

end Bindery.Project
