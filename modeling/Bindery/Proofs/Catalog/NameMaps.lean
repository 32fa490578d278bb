/-
# Bindery.Proofs.Catalog.NameMaps -- what entering pairs one after another leaves.

A name map is made by entering pairs, and what it gives for a name is the value that was entered
last.  Its entries stand in the order of their keys, each key once, so the map is known by what it
gives: two maps that agree on every name are one map.
-/
import Bindery.Catalog.NameMap
import Bindery.Proofs.Keys
import Mathlib.Data.List.Induction

namespace Bindery.NameMap

/-! ## Looking up -/

/-- What is entered last under a name counts. -/
theorem find?_ofList (pairs : List (String × String)) (name : String) :
    (ofList pairs).find? name = pairs.reverse.lookup name := by
  induction pairs using List.reverseRecOn with
  | nil => rfl
  | append_singleton pairs pair ih =>
    have hlast : ofList (pairs ++ [pair]) = (ofList pairs).insert pair.1 pair.2 := by
      simp [ofList, List.foldl_append]
    rw [hlast, find?_insert, ih, List.reverse_concat, List.lookup_cons]
    by_cases hname : name = pair.1
    · rw [if_pos hname, beq_iff_eq.mpr hname]
    · rw [if_neg hname, beq_eq_false_iff_ne.mpr hname]

/-! ## Order -/

/-- **`m.Sorted`** -- the entries stand in the order of their keys, each key once. -/
def Sorted (m : NameMap) : Prop :=
  m.entries.Pairwise fun entry other => entry.1 < other.1

/-- An insertion brings in its own entry alone. -/
theorem mem_insertSorted {key value : String} {entries : List (String × String)}
    {entry : String × String}
    (h : entry ∈ insertSorted key value entries) : entry = (key, value) ∨ entry ∈ entries := by
  induction entries with
  | nil => exact Or.inl (List.mem_singleton.mp h)
  | cons first rest ih =>
    rw [insertSorted] at h
    split at h
    · exact (List.mem_cons.mp h).imp_right (List.mem_cons_of_mem first)
    · split at h
      · exact List.mem_cons.mp h
      · rcases List.mem_cons.mp h with rfl | h
        · exact Or.inr List.mem_cons_self
        · exact (ih h).imp_right (List.mem_cons_of_mem first)

theorem pairwise_insertSorted (key value : String) {entries : List (String × String)}
    (h : entries.Pairwise fun entry other => entry.1 < other.1) :
    (insertSorted key value entries).Pairwise fun entry other => entry.1 < other.1 := by
  induction entries with
  | nil => exact List.pairwise_singleton _ _
  | cons first rest ih =>
    obtain ⟨hfirst, hrest⟩ := List.pairwise_cons.mp h
    rw [insertSorted]
    split
    · rename_i hsame
      exact List.pairwise_cons.mpr ⟨fun entry hentry => hsame ▸ hfirst entry hentry, hrest⟩
    · rename_i hdiffer
      split
      · rename_i hless
        refine List.pairwise_cons.mpr ⟨?_, h⟩
        rw [List.forall_mem_cons]
        exact ⟨hless, fun entry hentry => String.lt_trans hless (hfirst entry hentry)⟩
      · rename_i hnotLess
        refine List.pairwise_cons.mpr ⟨?_, ih hrest⟩
        intro entry hentry
        rcases mem_insertSorted hentry with rfl | hentry
        · -- keys are compared both ways, so the one that is neither equal nor less is greater
          exact String.not_le.mp fun hle =>
            hdiffer (String.le_antisymm hle (String.not_lt.mp hnotLess))
        · exact hfirst entry hentry

theorem sorted_ofList (pairs : List (String × String)) : (ofList pairs).Sorted := by
  induction pairs using List.reverseRecOn with
  | nil => exact List.Pairwise.nil
  | append_singleton pairs pair ih =>
    rw [ofList, List.foldl_append]
    exact pairwise_insertSorted pair.1 pair.2 ih

/-- The keys of a sorted map are distinct. -/
theorem Sorted.nodup_keys {m : NameMap} (h : m.Sorted) : (m.entries.map (·.1)).Nodup := by
  rw [List.Nodup, List.pairwise_map]
  refine List.Pairwise.imp ?_ h
  intro entry other hless hsame
  exact String.lt_irrefl entry.1 (hsame ▸ hless)

/-- The entries of a sorted map are what it gives. -/
theorem Sorted.mem_entries_iff {m : NameMap} (h : m.Sorted) {key value : String} :
    (key, value) ∈ m.entries ↔ m.find? key = some value :=
  ⟨lookup_eq_some_of_nodup h.nodup_keys, mem_of_lookup_eq_some⟩

/-- **Sorted maps that give the same for every name are one map.** -/
theorem Sorted.ext {m m' : NameMap} (h : m.Sorted) (h' : m'.Sorted)
    (hsame : ∀ name, m.find? name = m'.find? name) : m = m' := by
  have hmem : ∀ entry, entry ∈ m.entries ↔ entry ∈ m'.entries := by
    rintro ⟨key, value⟩
    rw [h.mem_entries_iff, h'.mem_entries_iff, hsame]
  have hperm : m.entries.Perm m'.entries :=
    (List.perm_ext_iff_of_nodup h.nodup_keys.of_map h'.nodup_keys.of_map).mpr hmem
  have hentries : m.entries = m'.entries := by
    refine List.Perm.eq_of_pairwise ?_ h h' hperm
    intro entry other _ _ hless hgreater
    exact absurd (String.lt_trans hless hgreater) (String.lt_irrefl entry.1)
  cases m
  cases m'
  exact congrArg NameMap.mk hentries

/-- Maps that are made by entering pairs are the same when they give the same for every name. -/
theorem ofList_eq_ofList_iff {pairs pairs' : List (String × String)} :
    ofList pairs = ofList pairs' ↔ ∀ name, (ofList pairs).find? name = (ofList pairs').find? name :=
  ⟨fun hsame name => congrArg (find? · name) hsame,
    (sorted_ofList pairs).ext (sorted_ofList pairs')⟩

end Bindery.NameMap
