/-
# Bindery.Project.Manifest -- the manifest of a project.

A manifest says where a project keeps its two catalogs, where and how its units are written, whether
they test themselves, and where the reference headers stand.  Only the catalogs have no default.
All paths are seen from the directory of the manifest.
-/
import Bindery.Files.Path
import Bindery.Project.PathTemplate
import Bindery.Toml.Document
import Bindery.Toml.Shape
import Bindery.Unit.Assembly

namespace Bindery

/-! ## Settings -/

/-- Where the catalogs stand. -/
structure CatalogFiles where
  functions : String
  parameters : String
deriving Repr, DecidableEq

/-- Where and how units are written. -/
structure OutputSettings where
  directory : String := "src/ffi"
  /-- The template of a unit's file below the directory. -/
  template : String := "\x7bmodule\x7d.rs"
  /-- The backends for which nothing is generated. -/
  skip : List Backend := []
  /-- The import lines of every unit. -/
  uses : List String := ["use super::*;"]
deriving Repr, DecidableEq

/-- Whether units test themselves. -/
structure SelfTestSettings where
  enabled : Bool := true
  /-- The message to sign, unless it is the default one. -/
  message : Option String := none
deriving Repr, DecidableEq

/-- The manifest of a project. -/
structure Manifest where
  catalog : CatalogFiles
  output : OutputSettings := {}
  selfTest : SelfTestSettings := {}
  /-- The root of the tree of reference headers. -/
  headers : String := "extern"
deriving Repr, DecidableEq

namespace Manifest

/-- The name of manifests. -/
def fileName : String := "wrapgen.toml"

/-! ## What follows from a manifest -/

/-- The options of a run. -/
def options (m : Manifest) : Options where
  skip := m.output.skip
  uses := m.output.uses
  selfTest := m.selfTest.enabled
  message := m.selfTest.message.getD SelfTest.defaultMessage

/-- The function catalog of the project in a directory. -/
def functionsPath (m : Manifest) (root : Path) : Path :=
  root / m.catalog.functions

/-- The parameter catalog of the project in a directory. -/
def parametersPath (m : Manifest) (root : Path) : Path :=
  root / m.catalog.parameters

/-- The reference headers of the project in a directory. -/
def headersPath (m : Manifest) (root : Path) : Path :=
  root / m.headers

/-- The directory of the units of the project in a directory. -/
def outputPath (m : Manifest) (root : Path) : Path :=
  root / m.output.directory

/-- The file of a variant's unit, as seen from the directory of the units. -/
def unitFile (m : Manifest) (v : Variant) : String :=
  fillTemplate m.output.template v

/-- **`unitPath m root v`** -- the file of a variant's unit. -/
def unitPath (m : Manifest) (root : Path) (v : Variant) : Path :=
  m.outputPath root / m.unitFile v

/-! ## Reading -/

open Toml.Shape

/-- The shape of the catalog section. -/
def catalogShape : Toml.Shape CatalogFiles := fun value => do
  let fs ← fields ["functions", "parameters"] value
  return {
    functions := ← required fs "functions" text
    parameters := ← required fs "parameters" text }

/-- The shape of the output section. -/
def outputShape : Toml.Shape OutputSettings := fun value => do
  let fs ← fields ["dir", "path", "skip", "uses"] value
  let defaults : OutputSettings := {}
  return {
    directory := ← defaulted fs "dir" text defaults.directory
    template := ← defaulted fs "path" text defaults.template
    skip := ← defaulted fs "skip" (listOf (choice Backend.ofName?)) defaults.skip
    uses := ← defaulted fs "uses" (listOf text) defaults.uses }

/-- The shape of the section on self-tests. -/
def selfTestShape : Toml.Shape SelfTestSettings := fun value => do
  let fs ← fields ["enabled", "message"] value
  let defaults : SelfTestSettings := {}
  return {
    enabled := ← defaulted fs "enabled" flag defaults.enabled
    message := ← optional fs "message" text }

/-- The default root of the tree of reference headers. -/
def defaultHeaders : String := "extern"

/-- The shape of the section on checks. -/
def checkShape : Toml.Shape String := fun value => do
  let fs ← fields ["extern_dir"] value
  defaulted fs "extern_dir" text defaultHeaders

/-- **`parse text`** -- the manifest that a TOML document holds. -/
def parse (text : String) : Option Manifest := do
  let fs ← Toml.parse text
  return {
    catalog := ← required fs "catalog" catalogShape
    output := ← defaulted fs "output" outputShape {}
    selfTest := ← defaulted fs "self_test" selfTestShape {}
    headers := ← defaulted fs "check" checkShape defaultHeaders }

end Manifest

end Bindery
