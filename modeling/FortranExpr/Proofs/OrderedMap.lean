/-
# The entries of a map in order of insertion

The entries of a map and the values found under its keys say the same (`mem_toList_iff`), and
a new key adds its entry at the end (`toList_insert_of_get?_eq_none`).
-/

import FortranExpr.OrderedMap
import Mathlib.Data.List.Basic

namespace FortranExpr
namespace OrderedMap

variable {α β : Type}

/-- Only the empty map has no keys. -/
theorem eq_empty_of_keys_eq_nil {m : OrderedMap α β} (h : m.keys = []) : m = ∅ := by
  obtain ⟨toList, distinct⟩ := m
  obtain rfl := List.map_eq_nil_iff.1 h
  rfl

variable [DecidableEq α]

/-- What is found under a key is an entry. -/
theorem mem_of_lookup? {k : α} {v : β} {l : List (α × β)} (h : lookup? k l = some v) :
    (k, v) ∈ l := by
  induction l with
  | nil => cases h
  | cons e rest ih =>
    obtain ⟨a, b⟩ := e
    rw [lookup?] at h
    split at h
    · rename_i hk
      obtain rfl := Option.some.inj h
      exact hk ▸ List.mem_cons_self
    · exact List.mem_cons_of_mem _ (ih h)

/-- An entry is found under its key, where no key comes twice. -/
theorem lookup?_of_mem {k : α} {v : β} {l : List (α × β)} (hl : (l.map Prod.fst).Nodup)
    (h : (k, v) ∈ l) : lookup? k l = some v := by
  induction l with
  | nil => exact absurd h List.not_mem_nil
  | cons e rest ih =>
    rw [List.map_cons, List.nodup_cons] at hl
    rcases List.mem_cons.1 h with rfl | h
    · exact if_pos rfl
    · have hne : ¬e.1 = k := fun he => hl.1 (he ▸ List.mem_map_of_mem h)
      exact (if_neg hne).trans (ih hl.2 h)

/-- An entry is what is found under its key. -/
theorem mem_toList_iff {m : OrderedMap α β} {k : α} {v : β} :
    (k, v) ∈ m.toList ↔ m.get? k = some v :=
  ⟨lookup?_of_mem m.distinct, mem_of_lookup?⟩

/-- What is found under a key is a value. -/
theorem mem_values_of_get? {m : OrderedMap α β} {k : α} {v : β} (h : m.get? k = some v) :
    v ∈ m.values :=
  List.mem_map_of_mem (f := Prod.snd) (mem_toList_iff.2 h)

/-- Every value is found under some key. -/
theorem exists_get?_of_mem_values {m : OrderedMap α β} {v : β} (h : v ∈ m.values) :
    ∃ k, m.get? k = some v := by
  obtain ⟨⟨k, w⟩, hmem, rfl⟩ := List.mem_map.1 h
  exact ⟨k, mem_toList_iff.1 hmem⟩

/-- A new key goes to the end. -/
theorem insertEntry_of_lookup?_eq_none {k : α} (v : β) {l : List (α × β)}
    (h : lookup? k l = none) : insertEntry k v l = l ++ [(k, v)] := by
  induction l with
  | nil => rfl
  | cons e rest ih =>
    obtain ⟨a, b⟩ := e
    rw [lookup?] at h
    split at h
    · cases h
    · rename_i hk
      rw [insertEntry, if_neg hk, ih h, List.cons_append]

/-- **A new key** adds its entry at the end. -/
theorem toList_insert_of_get?_eq_none {m : OrderedMap α β} {k : α} (v : β)
    (h : m.get? k = none) : (m.insert k v).toList = m.toList ++ [(k, v)] :=
  insertEntry_of_lookup?_eq_none v h

/-- The value of a new key comes last. -/
theorem values_insert_of_get?_eq_none {m : OrderedMap α β} {k : α} (v : β)
    (h : m.get? k = none) : (m.insert k v).values = m.values ++ [v] := by
  rw [values, toList_insert_of_get?_eq_none v h, List.map_append]
  rfl

/-- Under a key that is not contained nothing is found. -/
theorem get?_eq_none_of_contains_eq_false {m : OrderedMap α β} {k : α}
    (h : ¬m.contains k = true) : m.get? k = none :=
  Option.not_isSome_iff_eq_none.1 h

/-- A new key leaves what is found under the others. -/
theorem get?_insert_of_not_contains {m : OrderedMap α β} {k a : α} {b : β}
    (hnew : ¬m.contains k) (v : β) (ha : m.get? a = some b) : (m.insert k v).get? a = some b := by
  have hne : ¬k = a := by
    rintro rfl
    rw [get?_eq_none_of_contains_eq_false hnew] at ha
    cases ha
  rw [get?_insert, if_neg hne, ha]

/-- New keys, all different, are added in the order they come. -/
theorem toList_foldl_insert {entries : List (α × β)} (hnodup : (entries.map Prod.fst).Nodup)
    {m : OrderedMap α β} (hm : ∀ e ∈ entries, m.get? e.1 = none) :
    (entries.foldl (fun m e => m.insert e.1 e.2) m).toList = m.toList ++ entries := by
  induction entries generalizing m with
  | nil => exact (List.append_nil _).symm
  | cons e rest ih =>
    rw [List.map_cons, List.nodup_cons] at hnodup
    rw [List.forall_mem_cons] at hm
    have hrest : ∀ d ∈ rest, (m.insert e.1 e.2).get? d.1 = none := fun d hd => by
      have hne : ¬e.1 = d.1 := fun he => hnodup.1 (he ▸ List.mem_map_of_mem hd)
      rw [get?_insert, if_neg hne]
      exact hm.2 d hd
    rw [List.foldl_cons, ih hnodup.2 hrest, toList_insert_of_get?_eq_none _ hm.1,
      List.append_assoc, List.singleton_append]

/-- **Entries under different keys** are kept as they stand. -/
theorem toList_ofList {entries : List (α × β)} (hnodup : (entries.map Prod.fst).Nodup) :
    (ofList entries).toList = entries :=
  toList_foldl_insert hnodup fun _ _ => rfl

end OrderedMap
end FortranExpr
