/-
# Bindery.Catalog.NameMap -- finite maps from names to names.

A wrapping says for some arguments whose storage they reuse.  Errors go through such a map in the
order of its keys, so the map keeps its entries sorted by key, character by character in code-point
order.  A key that is entered twice keeps its last value.
-/

namespace Bindery

/-- A finite map from names to names, sorted by key. -/
structure NameMap where
  entries : List (String × String)
deriving Repr, DecidableEq

namespace NameMap

/-- The map without entries. -/
def empty : NameMap := ⟨[]⟩

instance : Inhabited NameMap := ⟨empty⟩

/-- Enters a value into a sorted list of entries, in place of an earlier value of the same key. -/
def insertSorted (key value : String) : List (String × String) → List (String × String)
  | [] => [(key, value)]
  | (k, v) :: rest =>
    if key = k then (key, value) :: rest
    else if key < k then (key, value) :: (k, v) :: rest
    else (k, v) :: insertSorted key value rest

/-- Enters a value under a key. -/
def insert (m : NameMap) (key value : String) : NameMap :=
  ⟨insertSorted key value m.entries⟩

/-- The map that entering the pairs one after another gives. -/
def ofList (pairs : List (String × String)) : NameMap :=
  pairs.foldl (fun m pair => m.insert pair.1 pair.2) empty

/-- The value under a key. -/
def find? (m : NameMap) (key : String) : Option String :=
  m.entries.lookup key

/-- The keys in order. -/
def keys (m : NameMap) : List String :=
  m.entries.map (·.1)

/-- What an insertion leaves under each key. -/
theorem find?_insert (m : NameMap) (key value other : String) :
    (m.insert key value).find? other = if other = key then some value else m.find? other := by
  simp only [insert, find?]
  induction m.entries with
  | nil =>
    by_cases h : other = key
    · simp [insertSorted, h]
    · simp [insertSorted, h, beq_eq_false_iff_ne.2 h, List.lookup_cons]
  | cons entry rest ih =>
    obtain ⟨k, v⟩ := entry
    unfold insertSorted
    by_cases hk : key = k
    · subst hk
      by_cases h : other = key
      · simp [h]
      · simp [h, beq_eq_false_iff_ne.2 h, List.lookup_cons]
    · rw [if_neg hk]
      by_cases h : other = key
      · subst h
        split
        · simp
        · simp [List.lookup_cons, beq_eq_false_iff_ne.2 hk, ih]
      · split
        · simp [beq_eq_false_iff_ne.2 h, List.lookup_cons]
        · rw [List.lookup_cons, List.lookup_cons, ih]
          simp [h]

end NameMap

end Bindery
