/-
# Bindery.Project.References -- checking a project against its reference headers.

Every variant of the parameter catalog is compared with its header, also one for which nothing is
generated.  The first variant that cannot be compared or disagrees decides the failure.
-/
import Bindery.Header.Location
import Bindery.Project.Loading

namespace Bindery.Project

open Program

/-- Compares one variant with its header below a directory. -/
def checkVariant (directory : Path) (v : Variant) : Action Unit := do
  let path := v.headerPath directory
  let header ← orFail (fun e => .reference (.unreadable path e)) (← readText path)
  orFail (fun e => .reference (.disagrees e)) (v.checkHeader header)
  report .debug (v.label ++ ": constants match " ++ path.text)

/-- Compares variants one after another. -/
def checkVariants (directory : Path) : List Variant → Action Unit
  | [] => return ()
  | v :: rest => do
    checkVariant directory v
    checkVariants directory rest

/-- **`checkHeaders parameters directory`** -- compares every variant with its header; the number of
headers. -/
def checkHeaders (parameters : ParameterCatalog) (directory : Path) : Action Nat := do
  checkVariants directory parameters.variants
  return parameters.variants.length

/-- **`checkConstants project directory`** -- checks the constants of a project.  A directory that
is given replaces the one that the manifest names, and is seen from the same place. -/
def checkConstants (project : Located) (directory : Option String) : Action Unit := do
  let parameters ← loadWith ParameterCatalog.parse
    (project.manifest.parametersPath project.root) .headerCheck
  let headers := match directory with
    | some given => project.root / given
    | none => project.manifest.headersPath project.root
  if (← kindOf headers) = some .directory then
    let count ← checkHeaders parameters headers
    say ("Constants of " ++ count.repr ++ " variants match the headers in " ++ headers.text ++ "\n")
  else fail (.noHeaders headers)

end Bindery.Project
