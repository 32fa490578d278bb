/-
# Bindery.Proofs.Project.Index -- the index names the files into which units are written.

The index and the units are made apart: the index goes through the selected variants and names each
file in a string literal, while a unit is written to a path of its own.  They agree.  The index is a
sequence of entries, one for every unit of a run in the order of the units, and the file that an
entry denotes, seen from the directory of the units, is the file of its unit.
-/
import Bindery.Project.Manifest
import Bindery.Proofs.Text.Literal
import Bindery.Proofs.Unit.Modules

namespace Bindery

/-! ## Entries -/

/-- An entry of a module index. -/
structure IndexEntry where
  /-- The build predicates that gate the module. -/
  predicates : List String
  /-- The body of the string literal that names the module's file, if one does. -/
  literal : Option String
  name : String
deriving Repr, DecidableEq

namespace IndexEntry

/-- The lines of an entry: the gate, the file where it is named, and the module. -/
def lines (e : IndexEntry) : List String :=
  Source.gateLine e.predicates ::
    (e.literal.toList.map fun body => "#[path = \"" ++ body ++ "\"]") ++
    ["pub mod " ++ e.name ++ ";"]

/-- The text of an entry. -/
def text (e : IndexEntry) : String :=
  Source.ofLines e.lines

/-- **`e.file?`** -- the file that an entry denotes: the text for which its literal stands, or what
the module's name gives. -/
def file? (e : IndexEntry) : Option String :=
  match e.literal with
  | some body => Text.denoted? body
  | none => some (Source.moduleFile e.name)

end IndexEntry

/-- The entry of a variant whose unit stands in `file`. -/
def Variant.indexEntry (v : Variant) (file : String) : IndexEntry where
  predicates := v.predicates
  literal := if file = Source.moduleFile v.moduleName then none else some (Text.stringLiteral file)
  name := v.moduleName

theorem Variant.lines_indexEntry (v : Variant) (file : String) :
    (v.indexEntry file).lines = v.indexLines file := by
  rw [IndexEntry.lines, indexEntry, indexLines, Source.fileLines]
  split <;> rfl

/-- **The entry of a variant denotes the file of its unit**, whether it names the file or leaves it
to the module's name. -/
theorem Variant.file?_indexEntry (v : Variant) (file : String) :
    (v.indexEntry file).file? = some file := by
  rw [IndexEntry.file?, indexEntry]
  split
  · rename_i body hliteral
    split at hliteral
    · cases hliteral
    · cases hliteral
      exact Text.denoted?_stringLiteral file
  · rename_i hliteral
    split at hliteral
    · rename_i hsame
      rw [hsame]
    · cases hliteral

theorem Variant.literal_indexEntry_eq_none_iff (v : Variant) (file : String) :
    (v.indexEntry file).literal = none ↔ file = Source.moduleFile v.moduleName := by
  simp [indexEntry]

/-! ## The index -/

/-- The index is the texts of the entries of the selected variants, one after another. -/
theorem ParameterCatalog.moduleIndex_eq (p : ParameterCatalog) (o : Options)
    (fileOf : Variant → String) :
    p.moduleIndex o fileOf = String.join ((p.selected o).map fun v =>
        (v.indexEntry (fileOf v)).text) := by
  rw [moduleIndex]
  induction p.selected o with
  | nil => rfl
  | cons v rest ih =>
    rw [List.flatMap_cons, Source.ofLines_append, ih, List.map_cons, String.join_cons,
      IndexEntry.text, Variant.lines_indexEntry]

/-- **`e.Names m root u`** -- the entry is that of a unit: it gates the unit's module, and the file
that it denotes, seen from the directory of the units, is where the unit is written.  The file is
left out exactly where the module's name gives it. -/
structure IndexEntry.Names (m : Manifest) (root : Path) (u : SourceUnit) (e : IndexEntry) :
    Prop where
  predicates : e.predicates = u.variant.predicates
  name : e.name = u.variant.moduleName
  file : ∃ file, e.file? = some file ∧ root / m.output.directory / file =
    m.unitPath root u.variant ∧
    (e.literal = none ↔ file = Source.moduleFile u.variant.moduleName)

theorem Variant.names_indexEntry (m : Manifest) (root : Path) (u : SourceUnit) :
    (u.variant.indexEntry (m.unitFile u.variant)).Names m root u :=
  ⟨rfl, rfl, _, u.variant.file?_indexEntry _, rfl, u.variant.literal_indexEntry_eq_none_iff _⟩

/-- **The index names the files of the units**: it is the texts of one entry for each unit of the
run, in order, each of which denotes the file of its unit; and the units are those of the variants
whose backend is not skipped. -/
theorem index_names_unit_files {c : FunctionCatalog} {p : ParameterCatalog} {m : Manifest}
    {units : List SourceUnit}
    (hunits : c.assembleAll p m.options = .ok units) (root : Path) :
    (∃ entries, p.moduleIndex m.options m.unitFile = String.join (entries.map IndexEntry.text) ∧
        List.Forall₂ (fun u e => IndexEntry.Names m root u e) units entries) ∧
      units.map (·.variant) = p.variants.filter fun v => !m.output.skip.contains v.backend := by
  have hvariants : units.map (·.variant) = p.selected m.options :=
    FunctionCatalog.assembleAll_variants hunits
  refine ⟨⟨units.map fun u => u.variant.indexEntry (m.unitFile u.variant), ?_, ?_⟩, hvariants⟩
  · rw [ParameterCatalog.moduleIndex_eq, ← hvariants, List.map_map, List.map_map]
    rfl
  · rw [List.forall₂_map_right_iff]
    exact List.forall₂_same.mpr fun u _ => Variant.names_indexEntry m root u

/-! ## A sample -/

/-- A manifest that skips one backend and whose template needs escapes. -/
def quotingManifest : Manifest where
  catalog := ⟨"api", "sets"⟩
  output := { directory := "out", template := "é\"\x7bimpl\x7d.rs", skip := [.avx2] }

/-- The index of the sample has one entry, for the backend that is not skipped, and names a file in
a literal with escapes. -/
theorem quoted_index_names_unit_file :
    sampleCatalog.assembleAll sampleParameters quotingManifest.options = .ok [sampleUnit] ∧
      sampleParameters.moduleIndex quotingManifest.options quotingManifest.unitFile =
        "#[cfg(feature = \"dilithium2\")]\n#[path = \"\\u\x7be9\x7d\\\"clean.rs\"]\n" ++
          "pub mod dilithium2_clean;\n" ∧
      ∃ entries,
        sampleParameters.moduleIndex quotingManifest.options quotingManifest.unitFile =
          String.join (entries.map IndexEntry.text) ∧
        List.Forall₂ (fun u e => IndexEntry.Names quotingManifest ⟨"/p"⟩ u e)
            [sampleUnit] entries := by
  have hunits : sampleCatalog.assembleAll sampleParameters quotingManifest.options =
    .ok [sampleUnit] := by decide +kernel
  exact ⟨hunits, by decide +kernel, (index_names_unit_files hunits ⟨"/p"⟩).1⟩

end Bindery
