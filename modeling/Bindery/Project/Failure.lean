/-
# Bindery.Project.Failure -- why a command gives up.

Each failure is a cause, with the path it concerns.  Its text names the cause and, after it, the
causes of the cause, so a cause whose text repeats its own cause shows it again.
-/
import Bindery.Catalog.Error
import Bindery.Files.Tree
import Bindery.Header.Check
import Bindery.Wrapper.Fault

namespace Bindery

/-- The texts of a cause and of the causes behind it. -/
def chainText (texts : List String) : String :=
  ": ".intercalate texts

/-- What is said about a file that cannot be used. -/
def fileErrorText (e : FileError) : String :=
  "I/O error: " ++ e.message

/-! ## Catalogs -/

/-- Why a catalog file cannot be loaded. -/
inductive LoadError where
  /-- The file cannot be read. -/
  | unreadable (cause : FileError)
  /-- The catalog is refused. -/
  | refused (cause : CatalogError)
deriving Repr, DecidableEq

namespace LoadError

/-- The text of a load error. -/
def message : LoadError → String
  | .unreadable cause => fileErrorText cause
  | .refused cause => cause.message

/-- The text with the causes behind it. -/
def chain : LoadError → List String
  | .unreadable cause => [fileErrorText cause, cause.message]
  | .refused cause => [cause.message]

/-- The text that the derivation of units gives to a load error.  An unknown result convention is an
error of its own. -/
def derivationMessage : LoadError → String
  | .refused (.unknownConvention function tag) =>
    function ++ ": unknown result convention '" ++ tag ++ "'"
  | e => "catalog error: " ++ e.message

/-- The text with the causes behind it.  What is wrong with a malformed document is not said again.
-/
def derivationChain : LoadError → List String
  | .refused (.unknownConvention function tag) =>
    [derivationMessage (.refused (.unknownConvention function tag))]
  | .refused .malformed => [derivationMessage (.refused .malformed)]
  | e => e.derivationMessage :: e.chain

end LoadError

/-! ## Reference headers -/

/-- Why a variant cannot be compared with its reference header, or disagrees with it. -/
inductive ReferenceError where
  /-- The header cannot be read. -/
  | unreadable (path : Path) (cause : FileError)
  /-- The header disagrees. -/
  | disagrees (fault : HeaderFault)
deriving Repr, DecidableEq

namespace ReferenceError

/-- What is said about a header that cannot be read. -/
def headerText (path : Path) (cause : FileError) : String :=
  path.text ++ ": " ++ cause.message

/-- The text of a reference error. -/
def message : ReferenceError → String
  | .unreadable path cause => "I/O error: " ++ headerText path cause
  | .disagrees fault => fault.message

/-- The text with the causes behind it. -/
def chain : ReferenceError → List String
  | .unreadable path cause => [message (.unreadable path cause), headerText path cause]
  | .disagrees fault => [fault.message]

end ReferenceError

/-! ## Failures -/

/-- Who loads a catalog. -/
inductive Loader where
  | derivation
  | headerCheck
deriving Repr, DecidableEq

/-- Why a command gives up. -/
inductive Failure where
  /-- Neither the working directory nor one above it has a manifest. -/
  | noManifest
  /-- A new project would replace a manifest. -/
  | manifestExists (path : Path)
  /-- The manifest is no document of the required shape. -/
  | manifestRefused (path : Path)
  | reading (path : Path) (cause : FileError)
  | creating (path : Path) (cause : FileError)
  | writing (path : Path) (cause : FileError)
  /-- The directory of a file cannot be made. -/
  | directory (cause : FileError)
  | loading (path : Path) (loader : Loader) (cause : LoadError)
  | derivation (cause : GenerationError)
  /-- Some of the generated files differ from what would be generated. -/
  | outOfDate (stale total : Nat)
  /-- The tree of reference headers is not there. -/
  | noHeaders (path : Path)
  | reference (cause : ReferenceError)
deriving Repr, DecidableEq

/-- The texts of a failure and of the causes behind it. -/
def Failure.chain : Failure → List String
  | .noManifest => ["no wrapgen.toml found (run `wrapgen init` first)"]
  | .manifestExists path => [path.text ++ " already exists"]
  | .manifestRefused path => ["parsing " ++ path.text]
  | .reading path cause => ["reading " ++ path.text, cause.message]
  | .creating path cause => ["creating " ++ path.text, cause.message]
  | .writing path cause => ["writing " ++ path.text, cause.message]
  | .directory cause => [cause.message]
  | .loading path .derivation cause => ("loading " ++ path.text) :: cause.derivationChain
  | .loading path .headerCheck cause => ("loading " ++ path.text) :: cause.chain
  | .derivation cause => [cause.message]
  | .outOfDate stale total =>
    [stale.repr ++ " of " ++ total.repr ++ " generated files are out of date"]
  | .noHeaders path => ["reference directory not found: " ++ path.text]
  | .reference cause => cause.chain

/-- The text of a failure. -/
def Failure.message (f : Failure) : String :=
  chainText f.chain

end Bindery
