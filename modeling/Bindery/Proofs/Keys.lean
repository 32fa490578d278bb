/-
# Bindery.Proofs.Keys -- looking things up by distinct names.

Rows, buffers, parameters and declarations are lists whose members have names, and a name is looked
up by going through the list. Where no two members share a name, a look-up finds the member that has
it and no other.
-/
import Mathlib.Data.List.Nodup

namespace Bindery

variable {α β : Type} {key : α → String}

/-- A key that no two members share selects its member alone. -/
theorem filter_key_eq_singleton {xs : List α} {x : α} (hnodup : (xs.map key).Nodup) (hx : x ∈ xs) :
    xs.filter (fun y => key y == key x) = [x] := by
  induction xs with
  | nil => cases hx
  | cons y ys ih =>
    rw [List.map_cons, List.nodup_cons] at hnodup
    by_cases hkey : key y = key x
    · have hrest : ys.filter (fun z => key z == key x) = [] := by
        rw [List.filter_eq_nil_iff]
        intro z hz hbeq
        exact hnodup.1 (List.mem_map.mpr ⟨z, hz, (eq_of_beq hbeq).trans hkey.symm⟩)
      have hhead : x = y := by
        rcases List.mem_cons.mp hx with rfl | hx
        · rfl
        · exact absurd (hkey ▸ List.mem_map_of_mem hx) hnodup.1
      rw [List.filter_cons, if_pos (beq_iff_eq.mpr hkey), hrest, hhead]
    · rw [List.filter_cons, if_neg (by rw [beq_iff_eq]; exact hkey)]
      rcases List.mem_cons.mp hx with rfl | hx
      · exact absurd rfl hkey
      · exact ih hnodup.2 hx

/-- A key that no two members share finds its member. -/
theorem find?_key_eq_some {xs : List α} {x : α} (hnodup : (xs.map key).Nodup) (hx : x ∈ xs) :
    xs.find? (fun y => key y == key x) = some x := by
  rw [← List.head?_filter, filter_key_eq_singleton hnodup hx]
  rfl

/-- What is found is a member that has the key. -/
theorem mem_of_find?_key_eq_some {xs : List α} {x : α} {name : String}
    (h : xs.find? (fun y => key y == name) = some x) :
    x ∈ xs ∧ key x = name :=
  ⟨List.mem_of_find?_eq_some h, eq_of_beq (List.find?_some (p := fun y => key y == name) h)⟩

/-- A name that no two entries share finds its entry. -/
theorem lookup_eq_some_of_nodup {entries : List (String × β)} {name : String} {value : β}
    (hnodup : (entries.map (·.1)).Nodup) (hmem : (name, value) ∈ entries) :
    entries.lookup name = some value := by
  induction entries with
  | nil => cases hmem
  | cons entry rest ih =>
    rw [List.map_cons, List.nodup_cons] at hnodup
    rcases List.mem_cons.mp hmem with rfl | hmem
    · exact List.lookup_cons_self
    · have hne : (name == entry.1) = false := by
        rw [beq_eq_false_iff_ne]
        rintro rfl
        exact hnodup.1 (List.mem_map.mpr ⟨(entry.1, value), hmem, rfl⟩)
      rw [List.lookup_cons, hne]
      exact ih hnodup.2 hmem

/-- What a look-up finds is an entry of the name. -/
theorem mem_of_lookup_eq_some {entries : List (String × β)} {name : String} {value : β}
    (h : entries.lookup name = some value) : (name, value) ∈ entries := by
  obtain ⟨before, after, rfl, -⟩ := List.lookup_eq_some_iff.mp h
  exact List.mem_append_right before List.mem_cons_self

/-- Looking up names whose entries carry them gives the names back. -/
theorem map_filterMap_eq_self {look : String → Option β} {name : β → String} {names : List String}
    (h : ∀ n ∈ names, ∃ entry, look n = some entry ∧ name entry = n) :
    (names.filterMap look).map name = names := by
  induction names with
  | nil => rfl
  | cons n rest ih =>
    rw [List.forall_mem_cons] at h
    obtain ⟨⟨entry, hentry, hname⟩, hrest⟩ := h
    rw [List.filterMap_cons_some hentry, List.map_cons, hname, ih hrest]

end Bindery
