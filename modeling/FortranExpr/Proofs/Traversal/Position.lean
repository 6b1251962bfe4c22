/-
# Positions in an item

A position is the path of part numbers that leads to it, counted among
`Item.children`; `Item.at?` is the item that stands there.  `Item.paths` lists all
positions: an item comes before its parts, and its parts come one after the other.

The list is strictly increasing in lexicographic order (`pairwise_lt_paths`), so every
position is in it once (`mem_paths_iff`) and stands where the source has it.
-/

import FortranExpr.Traversal.Item
import Mathlib.Data.List.Basic

namespace FortranExpr

variable {σ : Type}

namespace Item

/-- The item at a position. -/
def at? (i : Item σ) : List Nat → Option (Item σ)
  | [] => some i
  | k :: path => i.children[k]?.bind fun c => c.at? path

/-- All positions in an item: its own, then those in its parts, part by part. -/
def paths (i : Item σ) : List (List Nat) :=
  [] :: i.children.attach.zipIdx.flatMap fun c => c.1.1.paths.map (c.2 :: ·)
termination_by sizeOf i
decreasing_by exact sizeOf_lt_of_mem_children c.1.2

theorem paths_eq (i : Item σ) :
    i.paths = [] :: i.children.zipIdx.flatMap fun c => c.1.paths.map (c.2 :: ·) := by
  have hattach : i.children.zipIdx = i.children.attach.zipIdx.map (Prod.map Subtype.val id) := by
    rw [← List.zipIdx_map, List.attach_map_subtype_val]
  rw [paths, hattach, List.flatMap_map]
  rfl

theorem at?_cons_eq_some_iff {i d : Item σ} {k : Nat} {path : List Nat} :
    i.at? (k :: path) = some d ↔ ∃ c, i.children[k]? = some c ∧ c.at? path = some d :=
  Option.bind_eq_some_iff

theorem cons_mem_paths_iff {i : Item σ} {k : Nat} {path : List Nat} :
    k :: path ∈ i.paths ↔ ∃ c, i.children[k]? = some c ∧ path ∈ c.paths := by
  rw [paths_eq, List.mem_cons, or_iff_right (List.cons_ne_nil k path), List.mem_flatMap]
  constructor
  · rintro ⟨⟨c, j⟩, hc, hpath⟩
    obtain ⟨rest, hrest, heq⟩ := List.mem_map.1 hpath
    obtain ⟨rfl, rfl⟩ := List.cons.inj heq
    exact ⟨c, List.mem_zipIdx_iff_getElem?.1 hc, hrest⟩
  · rintro ⟨c, hc, hpath⟩
    exact ⟨(c, k), List.mem_zipIdx_iff_getElem?.2 hc, List.mem_map_of_mem hpath⟩

/-- **Every position is listed,** and nothing else is. -/
theorem mem_paths_iff {i : Item σ} {path : List Nat} :
    path ∈ i.paths ↔ ∃ d, i.at? path = some d := by
  induction path generalizing i with
  | nil =>
    rw [paths_eq]
    exact ⟨fun _ => ⟨i, rfl⟩, fun _ => List.mem_cons_self⟩
  | cons k path ih =>
    rw [cons_mem_paths_iff]
    constructor
    · rintro ⟨c, hc, hpath⟩
      obtain ⟨d, hd⟩ := ih.1 hpath
      exact ⟨d, at?_cons_eq_some_iff.2 ⟨c, hc, hd⟩⟩
    · rintro ⟨d, hd⟩
      obtain ⟨c, hc, hcd⟩ := at?_cons_eq_some_iff.1 hd
      exact ⟨c, hc, ih.2 ⟨d, hcd⟩⟩

/-- **No position is listed twice,** and the list goes through the source from left to
right. -/
theorem pairwise_lt_paths (i : Item σ) : i.paths.Pairwise (· < ·) := by
  induction i using Item.induction with
  | step i ih =>
    have hnumbers : i.children.zipIdx.Pairwise fun a b => a.2 < b.2 := by
      rw [List.pairwise_iff_getElem]
      intro j k hj hk hjk
      simpa using hjk
    rw [paths_eq, List.pairwise_cons, List.pairwise_flatMap]
    refine ⟨fun path hpath => ?_, fun c hc => ?_, hnumbers.imp fun {a b} hab path hpath => ?_⟩
    · obtain ⟨c, _, hc⟩ := List.mem_flatMap.1 hpath
      obtain ⟨rest, _, rfl⟩ := List.mem_map.1 hc
      exact List.nil_lt_cons _ _
    · have hpart : c.1 ∈ i.children :=
        List.mem_of_getElem? (List.mem_zipIdx_iff_getElem?.1 hc)
      exact List.pairwise_map.2 ((ih c.1 hpart).imp fun h => List.cons_lt_cons_iff.2 (.inr ⟨rfl, h⟩))
    · intro path' hpath'
      obtain ⟨rest, _, rfl⟩ := List.mem_map.1 hpath
      obtain ⟨rest', _, rfl⟩ := List.mem_map.1 hpath'
      exact List.cons_lt_cons_iff.2 (.inl hab)

/-- The items at all positions of a part are those at the positions below it. -/
theorem map_at?_paths (i : Item σ) :
    i.paths.map i.at? = some i :: i.children.flatMap fun c => c.paths.map c.at? := by
  have hpart (c : Item σ × Nat) (hc : c ∈ i.children.zipIdx) :
      (c.1.paths.map (c.2 :: ·)).map i.at? = c.1.paths.map c.1.at? := by
    rw [List.map_map]
    refine List.map_congr_left fun path _ => ?_
    show i.children[c.2]?.bind (fun d => d.at? path) = c.1.at? path
    rw [List.mem_zipIdx_iff_getElem?.1 hc, Option.bind_some]
  calc i.paths.map i.at?
      = some i :: i.children.zipIdx.flatMap fun c => (c.1.paths.map (c.2 :: ·)).map i.at? := by
        rw [paths_eq, List.map_cons, List.map_flatMap]
        rfl
    _ = some i :: i.children.zipIdx.flatMap fun c => c.1.paths.map c.1.at? := by
        rw [List.flatMap_congr hpart]
    _ = some i :: i.children.flatMap fun c => c.paths.map c.at? := by
        conv_rhs => rw [← List.zipIdx_map_fst 0 i.children, List.flatMap_map]

end Item
end FortranExpr
