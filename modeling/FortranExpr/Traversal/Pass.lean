/-
# Passes over an expression

A pass folds the results of the parts of an item in source order, and stops as soon
as the result so far is decided.

| field | meaning |
| --- | --- |
| `start` | the result where there is nothing to visit |
| `combine` | joins the result so far and that of the next part |
| `decided` | no further part can matter |
| `symbol` | the result for an occurrence of a symbol |
| `rule` | the item kinds that the pass treats in its own way |
| `onVisit` | what a visit adds to the result of the item |

`visit_eq` is the one equation of the walk.
-/

import FortranExpr.Traversal.Item

namespace FortranExpr

variable {σ R : Type}

/-- How a pass treats an item: like every other, by an answer of its own, or through
some of its parts only, continuing from `lead`. -/
inductive Rule (R : Type) where
  | usual
  | answer (r : R)
  | firstPart (lead : R)
  | laterParts (lead : R)

/-- A fold over the parts of an expression. -/
structure Pass (σ R : Type) where
  start : R
  combine : R → R → R
  decided : R → Bool
  symbol : σ → R
  rule : Item σ → Rule R := fun _ => .usual
  onVisit : Item σ → R → R := fun _ r => r

namespace Pass

/-- Visits items one after another until the result is decided. -/
def visitAll {α : Type} (p : Pass σ R) (visit : α → R) (acc : R) : List α → R
  | [] => acc
  | x :: rest =>
    let r := p.combine acc (visit x)
    if p.decided r then r else p.visitAll visit r rest

/-- The result of a pass on an item. -/
def visit (p : Pass σ R) (i : Item σ) : R :=
  let through (acc : R) (parts : List { c // c ∈ i.children }) : R :=
    p.visitAll (fun c => p.visit c.1) acc parts
  p.onVisit i <|
    match p.rule i with
    | .answer r => r
    | .firstPart lead => through lead (i.children.attach.take 1)
    | .laterParts lead => through lead (i.children.attach.drop 1)
    | .usual =>
      match i.named? with
      | some s => p.symbol s
      | none => through p.start i.children.attach
termination_by sizeOf i
decreasing_by exact Item.sizeOf_lt_of_mem_children c.2

theorem visitAll_map {α β : Type} (p : Pass σ R) (visit : β → R) (f : α → β) (acc : R)
    (l : List α) : p.visitAll visit acc (l.map f) = p.visitAll (fun x => visit (f x)) acc l := by
  induction l generalizing acc with
  | nil => rfl
  | cons x rest ih => simp only [List.map_cons, visitAll, ih]

/-- **The walk, in one equation.** -/
theorem visit_eq (p : Pass σ R) (i : Item σ) :
    p.visit i = p.onVisit i (match p.rule i with
      | .answer r => r
      | .firstPart lead => p.visitAll p.visit lead (i.children.take 1)
      | .laterParts lead => p.visitAll p.visit lead (i.children.drop 1)
      | .usual =>
        match i.named? with
        | some s => p.symbol s
        | none => p.visitAll p.visit p.start i.children) := by
  have key (acc : R) (parts : List { c // c ∈ i.children }) :
      p.visitAll (fun c => p.visit c.1) acc parts =
        p.visitAll p.visit acc (parts.map Subtype.val) :=
    (visitAll_map p p.visit Subtype.val acc parts).symm
  rw [visit]
  simp only [key, List.map_take, List.map_drop, List.attach_map_subtype_val]

/-- The result of a pass on an expression. -/
def run (p : Pass σ R) (e : Expr σ) : R := p.visit (.expr e)

/-- Conjunction: true unless some part says otherwise. -/
def all (symbol : σ → Bool) (rule : Item σ → Rule Bool := fun _ => .usual) : Pass σ Bool where
  start := true
  combine := and
  decided := not
  symbol := symbol
  rule := rule

/-- The first answer wins: none until some part gives one. -/
def any {α : Type} (symbol : σ → Option α)
    (rule : Item σ → Rule (Option α) := fun _ => .usual) : Pass σ (Option α) where
  start := none
  combine := Option.or
  decided := Option.isSome
  symbol := symbol
  rule := rule

/-- Counts occurrences of symbols until the count reaches a limit, if there is one. -/
def count (limit : Option Binary64) : Pass σ Nat where
  start := 0
  combine := (· + ·)
  decided n := limit.any fun l => l.lessEq (.finite n)
  symbol _ := 1

end Pass
end FortranExpr
