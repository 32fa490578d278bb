/-
# Bindery.Catalog.Parameters -- parameter sets, backends, and the variants of a scheme.

A scheme is compiled at several security levels, each with its own byte lengths, and for several
backends.  A pair of a parameter set and one of its backends is a variant: the unit of generation.
This module derives every name that a variant gives out: the stem of its foreign symbols, the
library it links, its module, its feature and its build predicates.
-/
import Bindery.Catalog.Error
import Bindery.Text.Upper

namespace Bindery

/-! ## Backends -/

/-- A compiled backend of the foreign library. -/
inductive Backend where
  /-- Portable reference code. -/
  | clean
  /-- x86-64 with AVX2. -/
  | avx2
  /-- AArch64 with NEON. -/
  | aarch64
deriving Repr, DecidableEq

namespace Backend

/-- The name of a backend in catalogs, symbols and paths. -/
def name : Backend → String
  | .clean => "clean"
  | .avx2 => "avx2"
  | .aarch64 => "aarch64"

/-- Every backend. -/
def all : List Backend := [.clean, .avx2, .aarch64]

/-- The backend of a name. -/
def ofName? (text : String) : Option Backend :=
  all.find? fun backend => backend.name == text

theorem ofName?_name (b : Backend) : ofName? b.name = some b := by
  cases b <;> decide

/-- The predicates on the target that must hold for the backend to be built.  Every AArch64 target
has NEON. -/
def targetPredicates : Backend → List String
  | .clean => []
  | .avx2 => ["target_arch = \"x86_64\"", "target_feature = \"avx2\""]
  | .aarch64 => ["target_arch = \"aarch64\""]

/-- The further predicates under which the tests of the backend run on the host. -/
def testPredicates : Backend → List String
  | .avx2 => ["target_feature = \"avx2\""]
  | _ => []

end Backend

/-! ## Catalogs -/

/-- One security level, its byte lengths, and the backends compiled for it. -/
structure ParameterSet where
  level : Nat
  publicKeyBytes : Nat
  secretKeyBytes : Nat
  signatureBytes : Nat
  backends : List Backend
deriving Repr, DecidableEq

/-- The parameter sets of one scheme. -/
structure ParameterCatalog where
  /-- The scheme's name, used in symbols, libraries and features. -/
  scheme : String
  /-- The name space of the foreign library's symbols. -/
  library : String
  sets : List ParameterSet
deriving Repr, DecidableEq

namespace ParameterCatalog

/-- The first level of the list that an earlier entry has too. -/
def firstRepeat? : List Nat → List Nat → Option Nat
  | _, [] => none
  | seen, level :: rest => if level ∈ seen then some level else firstRepeat? (level :: seen) rest

/-- **`check c`** -- a catalog is accepted when its scheme has a name and its levels are distinct.
-/
def check (c : ParameterCatalog) : Except CatalogError ParameterCatalog :=
  if c.scheme.isEmpty then .error .unnamedScheme
  else
    match firstRepeat? [] (c.sets.map (·.level)) with
    | some level => .error (.repeatedLevel level)
    | none => .ok c

end ParameterCatalog

/-! ## Variants -/

/-- A parameter set of a scheme together with one backend. -/
structure Variant where
  scheme : String
  library : String
  parameters : ParameterSet
  backend : Backend
deriving Repr, DecidableEq

/-- Every pair of a parameter set and one of its backends, in catalog order. -/
def ParameterCatalog.variants (c : ParameterCatalog) : List Variant :=
  c.sets.flatMap fun set => set.backends.map fun backend => ⟨c.scheme, c.library, set, backend⟩

namespace Variant

/-- The security level as a text. -/
def levelText (v : Variant) : String :=
  v.parameters.level.repr

/-- The scheme at the variant's level, which is also the name of its feature. -/
def feature (v : Variant) : String :=
  v.scheme ++ v.levelText

/-- How messages call the variant. -/
def label (v : Variant) : String :=
  v.feature ++ "/" ++ v.backend.name

/-- **`symbolStem v`** -- what every foreign symbol of the variant starts with. -/
def symbolStem (v : Variant) : String :=
  Text.upper v.library ++ "_" ++ Text.upper v.scheme ++ v.levelText ++ "_" ++
    Text.upper v.backend.name ++ "_"

/-- The static library that holds the variant's symbols. -/
def linkName (v : Variant) : String :=
  v.feature ++ "_" ++ v.backend.name

/-- The module of the variant's generated unit. -/
def moduleName (v : Variant) : String :=
  v.linkName

/-- The build predicates that gate the variant's module. -/
def predicates (v : Variant) : List String :=
  ("feature = \"" ++ v.feature ++ "\"") :: v.backend.targetPredicates

end Variant

end Bindery
