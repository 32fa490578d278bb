/-
# Bindery.Proofs.Catalog.Accepted -- what an accepted function catalog promises.

Entries are checked once, when the catalog is read.  Everything after that relies on three facts:
the arguments of a function have distinct names, so have the functions of a catalog, and every
function has a wrapping.  All of them are read off the entries that the functions are described by.
-/
import Bindery.Catalog.Document
import Bindery.Proofs.Catalog.Entries
import Mathlib.Data.List.Nodup

namespace Bindery

namespace FunctionCatalog

variable {text : String} {c : FunctionCatalog}

/-- A text that is read as a catalog has entries with distinct names, which describe the functions.
-/
theorem exists_entries_of_parse (h : parse text = .ok c) :
    ∃ entries : List FunctionEntry, (entries.map (·.name)).Nodup ∧
        List.Forall₂ FunctionEntry.Describes entries c.functions := by
  unfold parse at h
  split at h
  · rename_i entries _
    exact ⟨entries, ofEntries_eq_ok_iff.mp h⟩
  · cases h

/-- Every function of an accepted catalog is described by an entry. -/
theorem exists_describes_of_parse (h : parse text = .ok c) {f : ForeignFunction}
    (hf : f ∈ c.functions) :
    ∃ e : FunctionEntry, e.Describes f := by
  obtain ⟨entries, -, hdescribes⟩ := exists_entries_of_parse h
  obtain ⟨e, -, he⟩ := exists_left_of_forall₂ hdescribes hf
  exact ⟨e, he⟩

/-- The functions of an accepted catalog have distinct names. -/
theorem nodup_names (h : parse text = .ok c) : (c.functions.map (·.name)).Nodup := by
  obtain ⟨entries, hnodup, hdescribes⟩ := exists_entries_of_parse h
  have hnames : entries.map (·.name) = c.functions.map (·.name) :=
    map_eq_map_of_forall₂ hdescribes fun _ _ hdescribes => hdescribes.name.symm
  rwa [← hnames]

/-- The arguments of a function of an accepted catalog have distinct names. -/
theorem nodup_arguments (h : parse text = .ok c) {f : ForeignFunction} (hf : f ∈ c.functions) :
    (f.arguments.map (·.name)).Nodup := by
  obtain ⟨e, hdescribes⟩ := exists_describes_of_parse h hf
  exact hdescribes.nodup_arguments

/-- The functions of an accepted catalog have wrappings. -/
theorem wrappings_ne_nil (h : parse text = .ok c) {f : ForeignFunction} (hf : f ∈ c.functions) :
    f.wrappings ≠ [] := by
  obtain ⟨e, hdescribes⟩ := exists_describes_of_parse h hf
  exact hdescribes.wrappings_ne_nil

end FunctionCatalog

/-! ## A sample -/

/-- A function that opens a sealed buffer, into a buffer of the wrapper's own and in place; one
backend has a function of its own for the latter.  Records are written by position. -/
def sampleText : String :=
  "[[[\"open\",[[\"m\",\"*mut Buf\"],[\"n\",\"*mut u8\"],[\"s\",\"*const Buf\"]," ++
    "[\"k\",\"Key\"]]," ++
    "\"int\",null,null,[[\"\",\x7b\"s\":\"m\"\x7d,[\"n\",\"m\"],\"0 is Ok\"]," ++
    "[\"_at\",\x7b\"s\":\"m\"\x7d,[\"n\"],\"0 is Ok\"]]]," ++
    "[\"open_at\",[],null,[\"avx2\"]]]]"

/-- The wrapping of the sample that returns the opened buffer. -/
def sampleWrapping : Wrapping :=
  ⟨"", ⟨[("s", "m")]⟩, ["n", "m"], some .zeroIsOk, .identical, none⟩

/-- The function of the sample that is wrapped twice. -/
def sampleFunction : ForeignFunction where
  name := "open"
  arguments :=
    [⟨"m", .pointer .exclusive "Buf"⟩, ⟨"n", .pointer .exclusive "u8"⟩,
      ⟨"s", .pointer .shared "Buf"⟩,
    ⟨"k", .value "Key"⟩]
  returns := some (.value "int")
  backends := none
  wrappings := [sampleWrapping, ⟨"_at", ⟨[("s", "m")]⟩, ["n"], some .zeroIsOk, .identical, none⟩]

/-- The catalog of the sample. -/
def sampleCatalog : FunctionCatalog :=
  ⟨[sampleFunction, ⟨"open_at", [], none, some [.avx2], [⟨"", ⟨[]⟩, [], none, .identical, none⟩]⟩]⟩

theorem parse_sampleText : FunctionCatalog.parse sampleText = .ok sampleCatalog := by
  decide +kernel

end Bindery
