/-
# Bindery.Project.Generation -- generating the units of a project, or checking them.

All units are derived before the first of them is written, so a catalog that cannot be used leaves
the files as they are.
-/
import Bindery.Project.Loading
import Bindery.Source.Unit

namespace Bindery

/-! ## Progress messages -/

/-- The message about a wrapper that has been derived. -/
def Wrapper.progress (w : Wrapper) (v : Variant) : LogEntry :=
  ⟨.debug, v.label ++ ": " ++ w.signature.name ++ " (" ++ w.signature.params.length.repr ++
    " params, " ++
    (w.body.countP Statement.isAllocation).repr ++ " outputs)"⟩

/-- The warning about a variant whose unit cannot test itself. -/
def Variant.noSelfTest (v : Variant) : LogEntry :=
  ⟨.warn, v.label ++ ": signature functions missing from catalog, no self-test emitted"⟩

namespace FunctionCatalog

/-- The messages about the derivation of one unit, up to where it stops. -/
def unitProgress (c : FunctionCatalog) (o : Options) (v : Variant) : List LogEntry :=
  let (draft, stop) := c.draft v
  let untested :=
    stop.isNone && o.selfTest && (SelfTest.plan? v draft.declarations o.message).isNone
  (draft.wrappers.map fun w => w.progress v) ++ (if untested then [v.noSelfTest] else [])

/-- The messages about the derivation of all units.  Every selected variant is worked on, also after
one that fails. -/
def progress (c : FunctionCatalog) (p : ParameterCatalog) (o : Options) : List LogEntry :=
  match c.validate with
  | .ok _ => (p.selected o).flatMap (c.unitProgress o)
  | .error _ => []

end FunctionCatalog

namespace Project

open Program

/-! ## Derived files -/

/-- A file of a unit, as it is to be. -/
structure UnitFile where
  path : Path
  text : String
deriving Repr, DecidableEq

/-- **`unitFiles project`** -- the files of all units of a project. -/
def unitFiles (project : Located) : Action (List UnitFile) := do
  let manifest := project.manifest
  let functions ← loadFunctions (manifest.functionsPath project.root)
  let parameters ← loadParameters (manifest.parametersPath project.root)
  reportAll (functions.progress parameters manifest.options)
  let units ← orFail .derivation (functions.assembleAll parameters manifest.options)
  report .info ("derived " ++ units.length.repr ++ " units from " ++
    functions.functions.length.repr ++ " catalog functions")
  return units.map fun u => ⟨manifest.unitPath project.root u.variant, u.render⟩

/-! ## Writing -/

/-- Writes files one after another. -/
def writeAll : List UnitFile → Action Unit
  | [] => return ()
  | file :: rest => do
    makeRoom file.path .creating
    writeFile file.path file.text
    report .debug ("wrote " ++ file.path.text)
    writeAll rest

/-- **`generate project`** -- writes the files of all units. -/
def generate (project : Located) : Action Unit := do
  let files ← unitFiles project
  writeAll files
  say ("Generated " ++ files.length.repr ++ " units → " ++
    (project.manifest.outputPath project.root).text ++ "\n")

/-! ## Checking -/

/-- The files that are missing or differ from what they are to be. -/
def staleAmong : List UnitFile → Action (List UnitFile)
  | [] => return []
  | file :: rest => do
    let fresh := match ← readText file.path with
      | .ok text => text == file.text
      | .error _ => false
    let others ← staleAmong rest
    return if fresh then others else file :: others

/-- **`checkGenerated project`** -- compares the files of all units with what they are to be. -/
def checkGenerated (project : Located) : Action Unit := do
  let files ← unitFiles project
  let stale ← staleAmong files
  reportAll (stale.map fun file => ⟨.error, "out of date: " ++ file.path.text⟩)
  if stale.isEmpty then say ("All " ++ files.length.repr ++ " generated files are up to date\n")
  else fail (.outOfDate stale.length files.length)

end Project

end Bindery
