/-
# Bindery.Project.Loading -- finding and loading the files of a project.

The manifest is searched in the working directory and then in the directories above it.  The nearest
one counts, and a directory of that name does not.
-/
import Bindery.Catalog.Document
import Bindery.Files.Program
import Bindery.Project.Failure
import Bindery.Project.Manifest

namespace Bindery

/-- What a command does. -/
abbrev Action := Program Failure

namespace Project

open Program

/-! ## The manifest -/

/-- A project: the directory of its manifest, and the manifest. -/
structure Located where
  root : Path
  manifest : Manifest

/-- The first of some directories that has a manifest. -/
def findIn : List Path → Action Located
  | [] => fail .noManifest
  | directory :: rest => do
    let file := directory / Manifest.fileName
    if (← kindOf file) = some .file then
      let text ← orFail (.reading file) (← readText file)
      match Manifest.parse text with
      | none => fail (.manifestRefused file)
      | some manifest =>
        report .debug ("using manifest " ++ file.text)
        return ⟨directory, manifest⟩
    else findIn rest

/-- **`find here`** -- the project in which a directory lies. -/
def find (here : Path) : Action Located :=
  findIn (here :: here.parents)

/-! ## Catalogs -/

/-- A catalog, read from a file. -/
def loadWith {α : Type} (parse : String → Except CatalogError α) (path : Path) (loader : Loader) :
    Action α := do
  let text ← orFail (fun e => .loading path loader (.unreadable e)) (← readText path)
  orFail (fun e => .loading path loader (.refused e)) (parse text)

/-- The function catalog in a file. -/
def loadFunctions (path : Path) : Action FunctionCatalog := do
  let catalog ← loadWith FunctionCatalog.parse path .derivation
  report .debug ("loaded " ++ catalog.functions.length.repr ++ " catalog functions")
  return catalog

/-- The parameter catalog in a file, as the derivation of units loads it. -/
def loadParameters (path : Path) : Action ParameterCatalog := do
  let catalog ← loadWith ParameterCatalog.parse path .derivation
  report .debug (path.text ++ ": " ++ catalog.variants.length.repr ++ " variants")
  return catalog

/-! ## Writing -/

/-- Writes a file in a directory that is there. -/
def writeFile (path : Path) (text : String) : Action Unit := do
  orFail (.writing path) (← writeText path text)

/-- Makes the directory in which a file is to stand; `failure` says what it means that it cannot be
made. -/
def makeRoom (path : Path) (failure : Path → FileError → Failure) : Action Unit :=
  match path.parent? with
  | some directory => do orFail (failure directory) (← makeDirectories directory)
  | none => return ()

end Project

end Bindery
