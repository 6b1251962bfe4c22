/-
# Array elements in storage

An array lies in storage with its first dimension fastest.  The offset of an element is
its distance from the first element of the array; the elements that a section selects are
listed in array element order, the first dimension fastest again.

| definition | meaning |
| --- | --- |
| `progression a k n` | `a, a + k, a + 2k, …`, `n` of them |
| `offset` | the distance of an element from the first one |
| `elementOrder` | the elements that the indices of each dimension select together |

`offset_elementOrder_cons` lays one more dimension in front of the others, and
`offset_elementOrder_full` says that a whole dimension in front of consecutive offsets
leaves no gap.
-/

import Mathlib.Tactic.Ring

namespace FortranExpr

/-- One dimension of an array: its least index, and how many indices it has. -/
structure Dimension where
  lower : Int
  extent : Nat
deriving DecidableEq, Repr

namespace Dimension

/-- The greatest index. -/
def upper (d : Dimension) : Int := d.lower + d.extent - 1

/-- The index is one of the dimension. -/
def Contains (d : Dimension) (k : Int) : Prop := d.lower ≤ k ∧ k ≤ d.upper

instance (d : Dimension) (k : Int) : Decidable (d.Contains k) :=
  inferInstanceAs (Decidable (_ ∧ _))

end Dimension

/-- The numbers `first, first + step, …`, `n` of them. -/
def progression (first step : Int) : (n : Nat) → List Int
  | 0 => []
  | n + 1 => first :: progression (first + step) step n

/-- The distance of an element from the first element of the array. -/
def offset : List Dimension → (index : List Int) → Int
  | d :: dims, k :: rest => (k - d.lower) + d.extent * offset dims rest
  | _, _ => 0

/-- The elements that the indices of the dimensions select together, in array element
order. -/
def elementOrder : (indices : List (List Int)) → List (List Int)
  | [] => [[]]
  | ks :: rest => (elementOrder rest).flatMap fun index => ks.map fun k => k :: index

theorem progression_append (first step : Int) (m n : Nat) :
    progression first step m ++ progression (first + m * step) step n =
      progression first step (m + n) := by
  induction m generalizing first with
  | zero =>
    have h : first + (0 : Nat) * step = first := by push_cast; ring
    rw [h, Nat.zero_add, progression, List.nil_append]
  | succ m ih =>
    have h : first + (m + 1 : Nat) * step = first + step + m * step := by push_cast; ring
    rw [h, Nat.add_right_comm, progression, progression, List.cons_append, ih]

theorem map_add_progression (c first step : Int) (n : Nat) :
    (progression first step n).map (fun k => k + c) = progression (first + c) step n := by
  induction n generalizing first with
  | zero => rfl
  | succ n ih =>
    have h : first + step + c = first + c + step := by ring
    rw [progression, List.map_cons, ih, h, progression]

/-- One more dimension in front: its indices move every offset behind by their distance
from the least index. -/
theorem offset_elementOrder_cons (d : Dimension) (dims : List Dimension) (ks : List Int)
    (indices : List (List Int)) :
    (elementOrder (ks :: indices)).map (offset (d :: dims)) =
      ((elementOrder indices).map (offset dims)).flatMap fun o =>
        ks.map fun k => k + (d.extent * o - d.lower) := by
  rw [elementOrder, List.map_flatMap, List.flatMap_map]
  refine congrArg (fun f => (elementOrder indices).flatMap f) (funext fun index => ?_)
  rw [List.map_map]
  refine List.map_congr_left fun k _ => ?_
  show k - d.lower + d.extent * offset dims index = _
  ring

/-- Blocks of `m` consecutive numbers, one after the other, are consecutive. -/
theorem flatMap_progression (c : Int) (m n : Nat) (first : Int) :
    (progression first 1 n).flatMap (fun o => progression (c + m * o) 1 m) =
      progression (c + m * first) 1 (n * m) := by
  induction n generalizing first with
  | zero => rw [Nat.zero_mul]; rfl
  | succ n ih =>
    have h : c + m * (first + 1) = c + m * first + m * 1 := by ring
    rw [progression, List.flatMap_cons, ih, h, progression_append, Nat.succ_mul, Nat.add_comm]

/-- **A whole dimension leaves no gap:** in front of consecutive offsets it gives
consecutive ones again. -/
theorem offset_elementOrder_full (d : Dimension) {dims : List Dimension}
    {indices : List (List Int)} {o : Int} {n : Nat}
    (h : (elementOrder indices).map (offset dims) = progression o 1 n) :
    (elementOrder (progression d.lower 1 d.extent :: indices)).map (offset (d :: dims)) =
      progression (d.extent * o) 1 (n * d.extent) := by
  have hblock (o : Int) : (progression d.lower 1 d.extent).map
      (fun k => k + (d.extent * o - d.lower)) = progression (0 + d.extent * o) 1 d.extent := by
    rw [map_add_progression]
    congr 1
    ring
  rw [offset_elementOrder_cons, h]
  simp only [hblock]
  rw [flatMap_progression, zero_add]

/-- Consecutive indices of one dimension in front of a single element give consecutive
offsets. -/
theorem offset_elementOrder_single (d : Dimension) {dims : List Dimension}
    {indices : List (List Int)} {o : Int} (first : Int) (m : Nat)
    (h : (elementOrder indices).map (offset dims) = progression o 1 1) :
    (elementOrder (progression first 1 m :: indices)).map (offset (d :: dims)) =
      progression (first + (d.extent * o - d.lower)) 1 m := by
  rw [offset_elementOrder_cons, h, progression, progression, List.flatMap_cons,
    List.flatMap_nil, List.append_nil, map_add_progression]

/-- **Storage has no gaps:** the elements of a whole array, in array element order, have the
offsets `0, 1, 2, …`. -/
theorem offset_elementOrder_whole (dims : List Dimension) :
    (elementOrder (dims.map fun d => progression d.lower 1 d.extent)).map (offset dims) =
      progression 0 1 (dims.map Dimension.extent).prod := by
  induction dims with
  | nil => rfl
  | cons d dims ih =>
    rw [List.map_cons, offset_elementOrder_full d ih, mul_zero, List.map_cons, List.prod_cons,
      Nat.mul_comm]

end FortranExpr
