/-
# The members of an object

An object may be written with a name twice.  The last value of a name counts, both for who
asks for the member and for who goes through all of them (`mem_members_iff`).  The values
inside another one (`Json.Below`) are the members and the items that it has.
-/

import FortranExpr.Json.Basic
import FortranExpr.Proofs.OrderedMap

namespace FortranExpr
namespace Json

/-- Storing entries one after another leaves the last value of each name. -/
theorem get?_foldl_insert (written : List (String × Json)) (m : OrderedMap String Json)
    (name : String) :
    (written.foldl (fun m e => m.insert e.1 e.2) m).get? name =
      (lastUnder? name written).or (m.get? name) := by
  induction written generalizing m with
  | nil => rfl
  | cons e rest ih =>
    obtain ⟨n, v⟩ := e
    rw [List.foldl_cons, ih, OrderedMap.get?_insert, lastUnder?]
    cases lastUnder? name rest with
    | some w => rfl
    | none => split <;> rfl

/-- Of members written under one name, the last one counts. -/
theorem get?_ofList (written : List (String × Json)) (name : String) :
    (OrderedMap.ofList written).get? name = lastUnder? name written := by
  rw [OrderedMap.ofList, get?_foldl_insert, OrderedMap.get?_empty, Option.or_none]

/-- Members are enumerated in another order, but all of them and no others. -/
theorem mem_enumerated_iff {e : String × Json} {entries : List (String × Json)} :
    e ∈ enumerated entries ↔ e ∈ entries := by
  refine ⟨mem_enumerated, fun h => ?_⟩
  rw [enumerated, List.mem_append]
  cases hi : arrayIndex? e.1 with
  | none => exact .inr (List.mem_filter.2 ⟨h, Option.isNone_iff_eq_none.2 hi⟩)
  | some i =>
    refine .inl (List.mem_map.2 ⟨(i, e), ?_, rfl⟩)
    rw [List.mem_mergeSort, List.mem_filterMap]
    exact ⟨e, h, by rw [hi]; rfl⟩

/-- **Going through the members of a value** shows each under its name, and no other. -/
theorem mem_members_iff {v w : Json} {name : String} :
    (name, w) ∈ v.members ↔ v.get? name = some w := by
  cases v with
  | obj written =>
    show (name, w) ∈ enumerated (OrderedMap.ofList written).toList ↔
      lastUnder? name written = some w
    rw [mem_enumerated_iff, OrderedMap.mem_toList_iff, get?_ofList]
  | _ => simp [members, get?]

/-- **Members under different names** that are no array indices come as they are written. -/
theorem members_obj {written : List (String × Json)} (hnodup : (written.map Prod.fst).Nodup)
    (hname : ∀ e ∈ written, arrayIndex? e.1 = none) : (obj written).members = written := by
  have hindexed : (written.filterMap fun e => (arrayIndex? e.1).map fun i => (i, e)) = [] :=
    List.filterMap_eq_nil_iff.2 fun e he => by rw [hname e he]; rfl
  rw [members, OrderedMap.toList_ofList hnodup, enumerated, hindexed, List.mergeSort_nil]
  exact List.filter_eq_self.2 fun e he => Option.isNone_iff_eq_none.2 (hname e he)

/-- A member with the proof that it is smaller is that member. -/
theorem map_child? (v : Json) (name : String) :
    (v.child? name).map Subtype.val = v.get? name := by
  unfold child?
  split <;> exact (Eq.symm ‹_›)

/-- Every member comes with the proof that it is smaller. -/
theorem exists_child? {v w : Json} {name : String} (h : v.get? name = some w) :
    ∃ u, v.child? name = some u ∧ u.1 = w :=
  Option.map_eq_some_iff.1 ((map_child? v name).trans h)

/-- All members, each with its proof, are all members. -/
theorem map_children (v : Json) :
    v.children.map (fun e => (e.1, e.2.1)) = v.members := by
  rw [children, List.map_map]
  exact List.attach_map_subtype_val v.members

namespace Below

variable {v : Json}

/-- Inside a member the two readings agree as well. -/
theorem map_child? (w : Below v) (name : String) :
    (w.child? name).map Subtype.val = w.1.get? name := by
  rw [child?, Option.map_map, ← Json.map_child? w.1 name]
  rfl

/-- Every member of a member is smaller than the whole. -/
theorem exists_child? {w : Below v} {u : Json} {name : String} (h : w.1.get? name = some u) :
    ∃ t, w.child? name = some t ∧ t.1 = u :=
  Option.map_eq_some_iff.1 ((map_child? w name).trans h)

/-- A member that is not there has no proof to come with. -/
theorem child?_eq_none {w : Below v} {name : String} (h : w.1.get? name = none) :
    w.child? name = none :=
  Option.map_eq_none_iff.1 ((map_child? w name).trans h)

/-- Only an array has items, and the items with their proofs are all of them. -/
theorem val_of_items? {w : Below v} {items : List (Below v)} (h : w.items? = some items) :
    w.1 = .arr (items.map Subtype.val) := by
  obtain ⟨w, hw⟩ := w
  cases w with
  | arr list =>
    obtain rfl := Option.some.inj h
    rw [List.map_map]
    exact congrArg Json.arr (List.attach_map_subtype_val list).symm
  | _ => cases h

/-- Every array has its items with their proofs. -/
theorem exists_items? {w : Below v} {list : List Json} (h : w.1 = .arr list) :
    ∃ items, w.items? = some items ∧ items.map Subtype.val = list := by
  obtain ⟨w, hw⟩ := w
  obtain rfl : w = .arr list := h
  refine ⟨_, rfl, ?_⟩
  rw [List.map_map]
  exact List.attach_map_subtype_val list

/-- All members of a member are all of its members. -/
theorem map_children (w : Below v) :
    w.children.map (fun e => (e.1, e.2.1)) = w.1.members := by
  rw [children, List.map_map, ← Json.map_children w.1]
  rfl

end Below

end Json
end FortranExpr
