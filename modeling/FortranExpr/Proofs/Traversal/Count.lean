/-
# Counting with a limit

A count that stops when it is high enough adds up ones, and a sum that is high enough does not
absorb what follows.  Each node starts again from zero and compares its own sum alone, so
a node may stop where the whole count goes on to a higher sum, or go on where the whole count
is high enough already.  Three facts are kept all the same (`Pass.IsCountOf`):

| | |
| --- | --- |
| `counts` | the count is that of the occurrences in the log |
| `isPrefix` | the log is a beginning of that of the full walk |
| `complete` | a walk whose count is not high enough has left nothing out |

The last one is what makes the nodes around stop as well: sums only grow, so where a part has
stopped early, the sum with it is high enough too.
-/

import FortranExpr.Proofs.Traversal.Log
import Mathlib.Data.Real.Basic

namespace FortranExpr

variable {σ α : Type}

namespace Pass

/-- Counts occurrences of symbols until the count is high enough. -/
def counting (enough : Nat → Bool) : Pass σ Nat where
  start := 0
  combine := (· + ·)
  decided := enough
  symbol _ := 1

theorem count_eq_counting (limit : Option Binary64) : (count limit : Pass σ Nat) =
    counting fun n => limit.any fun l => l.lessEq (.finite n) := rfl

/-- A count that stopped, beside the log of the full walk. -/
structure IsCountOf (enough : Nat → Bool) (all : List (Event σ)) (r : Nat × List (Event σ)) :
    Prop where
  counts : r.1 = (r.2.filterMap Event.symbol?).length
  isPrefix : r.2 <+: all
  complete : enough r.1 = false → r.2 = all

/-- What is high enough stays so when it grows. -/
def IsUpward (enough : Nat → Bool) : Prop :=
  ∀ m n, m ≤ n → enough m = true → enough n = true

variable {enough : Nat → Bool}

/-- A loop goes on until the sum is high enough; what it did before does not matter. -/
theorem isCountOf_visitAll (hup : IsUpward enough) {f : α → Nat × List (Event σ)}
    {events : α → List (Event σ)} {l : List α} (h : ∀ x ∈ l, IsCountOf enough (events x) (f x))
    {before : List (Event σ)} {n : Nat} (hn : n = (before.filterMap Event.symbol?).length) :
    IsCountOf enough (before ++ l.flatMap events)
      ((counting enough).traced.visitAll f (n, before) l) := by
  induction l generalizing before n with
  | nil =>
    rw [List.flatMap_nil, List.append_nil]
    exact ⟨hn, List.prefix_rfl, fun _ => rfl⟩
  | cons x rest ih =>
    have hx := h x List.mem_cons_self
    have hrest : ∀ y ∈ rest, IsCountOf enough (events y) (f y) :=
      fun y hy => h y (List.mem_cons_of_mem x hy)
    have hcount : n + (f x).1 = ((before ++ (f x).2).filterMap Event.symbol?).length := by
      rw [List.filterMap_append, List.length_append, hn, hx.counts]
    show IsCountOf enough _ (if enough (n + (f x).1) = true
      then (n + (f x).1, before ++ (f x).2)
      else (counting enough).traced.visitAll f (n + (f x).1, before ++ (f x).2) rest)
    rw [List.flatMap_cons, ← List.append_assoc]
    split
    · rename_i hstop
      refine ⟨hcount, ?_, fun hgo => absurd hstop (ne_true_of_eq_false hgo)⟩
      exact ((List.prefix_append_right_inj before).2 hx.isPrefix).trans (List.prefix_append _ _)
    · rename_i hgo
      -- the part has not stopped either, for its own sum is lower still
      have hpart : enough (f x).1 = false := by
        rw [← Bool.not_eq_true]
        exact fun hstop => hgo (hup _ _ (Nat.le_add_left _ _) hstop)
      have hall : before ++ events x = before ++ (f x).2 := by rw [hx.complete hpart]
      rw [hall]
      exact ih hrest hcount

/-- **A count with a limit** is the count of its own log, which is a beginning of the full one,
and all of it where the count is not high enough. -/
theorem isCountOf_visit (hup : IsUpward enough) (i : Item σ) :
    IsCountOf enough i.events ((counting enough).traced.visit i) := by
  have hplain : (counting enough : Pass σ Nat).IsPlain := ⟨fun _ => rfl, fun _ _ => rfl⟩
  induction i using Item.induction with
  | step i ih =>
    cases hs : i.named? with
    | some s =>
      rw [traced_visit_of_named hplain hs, Item.events_of_named hs]
      exact ⟨rfl, List.prefix_rfl, fun _ => rfl⟩
    | none =>
      have hempty : 0 = (([] : List (Event σ)).filterMap Event.symbol?).length := rfl
      have hparts := isCountOf_visitAll hup ih hempty
      rw [List.nil_append] at hparts
      rw [traced_visit_of_unnamed hplain hs, Item.events_of_unnamed hs]
      exact ⟨hparts.counts, (List.prefix_cons_inj _).2 hparts.isPrefix,
        fun hgo => congrArg (.visit i :: ·) (hparts.complete hgo)⟩

end Pass

namespace Expr

/-- What a count with a limit says of the number of occurrences in an expression, and what it
visits. -/
structure IsLimitedCount (e : Expr σ) (reaches : Nat → Prop) (r : Nat × List (Event σ)) :
    Prop where
  count_le : r.1 ≤ e.occurrences.length
  full : ¬reaches e.occurrences.length → r.1 = e.occurrences.length ∧ r.2 = e.events
  reached : reaches e.occurrences.length → reaches r.1
  isPrefix : r.2 <+: e.events

theorem isLimitedCount_of_isUpward (e : Expr σ) {enough : Nat → Bool}
    (hup : Pass.IsUpward enough) :
    e.IsLimitedCount (fun n => enough n = true) ((Pass.counting enough).traced.run e) := by
  have h : Pass.IsCountOf enough e.events ((Pass.counting enough).traced.run e) :=
    Pass.isCountOf_visit hup (.expr e)
  have hall : (e.events.filterMap Event.symbol?).length = e.occurrences.length :=
    congrArg List.length (Item.filterMap_symbol?_events (.expr e))
  have hle : ((Pass.counting enough).traced.run e).1 ≤ e.occurrences.length := by
    rw [h.counts, ← hall]
    exact (h.isPrefix.sublist.filterMap _).length_le
  have hfull (hgo : enough ((Pass.counting enough).traced.run e).1 = false) :
      ((Pass.counting enough).traced.run e).1 = e.occurrences.length ∧
        ((Pass.counting enough).traced.run e).2 = e.events := by
    refine ⟨?_, h.complete hgo⟩
    rw [h.counts, h.complete hgo, hall]
  refine ⟨hle, fun hno => hfull ?_, fun hyes => ?_, h.isPrefix⟩
  · rw [← Bool.not_eq_true]
    exact fun hstop => hno (hup _ _ hle hstop)
  · by_contra hgo
    rw [Bool.not_eq_true] at hgo
    rw [(hfull hgo).1] at hgo
    exact absurd hyes (ne_true_of_eq_false hgo)

end Expr

/-- A limit of double precision is passed for good: none is never passed. -/
theorem Binary64.isUpward_lessEq (limit : Binary64) :
    Pass.IsUpward fun n => limit.lessEq (.finite n) := by
  intro m n hmn h
  cases limit with
  | nan => cases h
  | infinity negative => exact h
  | finite q =>
    have hm : q ≤ (m : Rat) := of_decide_eq_true h
    exact decide_eq_true (Rat.le_trans hm (Rat.natCast_le_natCast.2 hmn))

namespace Expr

/-- **A count with a limit never exceeds the number of occurrences,** and falls short of it only
where it has reached the limit.  Below the limit it is that number, after the full walk; and the
log is a beginning of that of the full walk in every case.  This holds for every real limit, and
for every limit of double precision; without a limit the count is the number of occurrences. -/
theorem run_counting_isLimitedCount (e : Expr σ) :
    (Pass.count none).traced.run e = (e.occurrences.length, e.events) ∧
    (∀ L : ℝ, e.IsLimitedCount (fun n => L ≤ n)
      ((Pass.counting fun n => decide (L ≤ n)).traced.run e)) ∧
    ∀ limit : Binary64, e.IsLimitedCount (fun n => limit.lessEq (.finite n) = true)
      ((Pass.count (some limit)).traced.run e) := by
  refine ⟨?_, fun L => ?_, fun limit => ?_⟩
  · have hnever : Pass.IsUpward fun _ => false := nofun
    obtain ⟨-, hfull, -, -⟩ := e.isLimitedCount_of_isUpward hnever
    rw [Pass.count_eq_counting]
    exact Prod.ext (hfull Bool.false_ne_true).1 (hfull Bool.false_ne_true).2
  · have hup : Pass.IsUpward fun n => decide (L ≤ n) := fun m n hmn h =>
      decide_eq_true (le_trans (of_decide_eq_true h) (Nat.cast_le.2 hmn))
    simpa only [decide_eq_true_eq] using e.isLimitedCount_of_isUpward hup
  · rw [Pass.count_eq_counting]
    exact e.isLimitedCount_of_isUpward limit.isUpward_lessEq

end Expr
end FortranExpr
