/-
# What stopping early leaves of a result

A walk stops as soon as the result so far is decided.  Where a decided result absorbs
whatever follows, stopping cannot be seen in the result: `visit_exhaustive` compares a
pass with the one that is never decided.

| pass | the parts of an item together |
| --- | --- |
| `Pass.all` | every part is accepted |
| `Pass.any` | the first answer of a part |

The equations `visit_of_…` are `visit_eq`, one for each rule.
-/

import FortranExpr.Traversal.Pass

namespace FortranExpr

variable {σ R α : Type}

namespace Pass

/-! ### One equation for each rule -/

/-- The rule answers by itself: no part is visited. -/
theorem visit_of_answer (p : Pass σ R) {i : Item σ} {r : R} (h : p.rule i = .answer r) :
    p.visit i = p.onVisit i r := by
  rw [visit_eq, h]

/-- Only the first part is visited, after what the rule leads with. -/
theorem visit_of_firstPart (p : Pass σ R) {i : Item σ} {lead : R}
    (h : p.rule i = .firstPart lead) :
    p.visit i = p.onVisit i (p.visitAll p.visit lead (i.children.take 1)) := by
  rw [visit_eq, h]

/-- All parts but the first are visited, after what the rule leads with. -/
theorem visit_of_laterParts (p : Pass σ R) {i : Item σ} {lead : R}
    (h : p.rule i = .laterParts lead) :
    p.visit i = p.onVisit i (p.visitAll p.visit lead (i.children.drop 1)) := by
  rw [visit_eq, h]

/-- An item that only names a symbol has the result of the symbol. -/
theorem visit_of_named (p : Pass σ R) {i : Item σ} {s : σ} (h : p.rule i = .usual)
    (hs : i.named? = some s) : p.visit i = p.onVisit i (p.symbol s) := by
  rw [visit_eq, h, hs]

/-- Any other item has the result of its parts together. -/
theorem visit_of_usual (p : Pass σ R) {i : Item σ} (h : p.rule i = .usual)
    (hs : i.named? = none) :
    p.visit i = p.onVisit i (p.visitAll p.visit p.start i.children) := by
  rw [visit_eq, h, hs]

/-- One part is combined with what is there already. -/
theorem visitAll_singleton (p : Pass σ R) (visit : α → R) (acc : R) (x : α) :
    p.visitAll visit acc [x] = p.combine acc (visit x) := by
  simp only [visitAll, ite_self]

/-! ### Passes that are never decided -/

/-- The pass that visits everything: it is never decided. -/
def exhaustive (p : Pass σ R) : Pass σ R := { p with decided := fun _ => false }

/-- A decided result stays as it is, whatever follows. -/
def Absorbing (p : Pass σ R) : Prop := ∀ r x, p.decided r = true → p.combine r x = r

/-- The result depends on the parts alone, and not on how others would be visited. -/
theorem visitAll_congr (p : Pass σ R) {f g : α → R} {l : List α} (h : ∀ x ∈ l, f x = g x)
    (acc : R) : p.visitAll f acc l = p.visitAll g acc l := by
  induction l generalizing acc with
  | nil => rfl
  | cons x rest ih =>
    have hx : f x = g x := h x List.mem_cons_self
    have hrest : ∀ y ∈ rest, f y = g y := fun y hy => h y (List.mem_cons_of_mem x hy)
    simp only [visitAll, hx, ih hrest]

/-- A decided result stays, even where the walk goes on. -/
theorem visitAll_exhaustive_of_decided {p : Pass σ R} (hp : p.Absorbing) (f : α → R) {r : R}
    (hr : p.decided r = true) (l : List α) : p.exhaustive.visitAll f r l = r := by
  induction l with
  | nil => rfl
  | cons x rest ih =>
    have hx : p.combine r (f x) = r := hp r (f x) hr
    show p.exhaustive.visitAll f (p.combine r (f x)) rest = r
    rw [hx, ih]

/-- So nothing is lost by stopping at a decided result. -/
theorem visitAll_exhaustive {p : Pass σ R} (hp : p.Absorbing) (f : α → R) (acc : R)
    (l : List α) : p.exhaustive.visitAll f acc l = p.visitAll f acc l := by
  induction l generalizing acc with
  | nil => rfl
  | cons x rest ih =>
    show p.exhaustive.visitAll f (p.combine acc (f x)) rest = p.visitAll f acc (x :: rest)
    by_cases hd : p.decided (p.combine acc (f x)) = true
    · rw [visitAll_exhaustive_of_decided hp f hd]
      simp only [visitAll, if_pos hd]
    · rw [ih]
      simp only [visitAll, if_neg hd]

/-- A walk that never stops is a fold over the parts. -/
theorem visitAll_exhaustive_eq_foldl (p : Pass σ R) (f : α → R) (acc : R) (l : List α) :
    p.exhaustive.visitAll f acc l = l.foldl (fun r x => p.combine r (f x)) acc := by
  induction l generalizing acc with
  | nil => rfl
  | cons x rest ih => exact ih (p.combine acc (f x))

/-- **Stopping is not seen in the result** of a pass whose decided results are absorbing:
the pass that visits everything has the same result on every item. -/
theorem visit_exhaustive {p : Pass σ R} (hp : p.Absorbing) (i : Item σ) :
    p.exhaustive.visit i = p.visit i := by
  induction i using Item.induction with
  | step i ih =>
    -- the parts of `i` that a rule picks are still parts of `i`
    have through (acc : R) {l : List (Item σ)} (hl : ∀ c ∈ l, c ∈ i.children) :
        p.exhaustive.visitAll p.exhaustive.visit acc l = p.visitAll p.visit acc l := by
      rw [visitAll_exhaustive hp]
      exact visitAll_congr p (fun c hc => ih c (hl c hc)) acc
    rw [visit_eq, visit_eq, through _ fun c hc => hc]
    simp only [through _ fun c hc => List.mem_of_mem_take hc,
      through _ fun c hc => List.mem_of_mem_drop hc]
    rfl

/-! ### Conjunction -/

section All

variable (symbol : σ → Bool) (rule : Item σ → Rule Bool)

/-- A refusal absorbs whatever follows. -/
theorem all_absorbing : (all symbol rule).Absorbing := by
  intro r x hr
  cases r with
  | false => rfl
  | true => exact absurd hr Bool.false_ne_true

/-- A sequence of parts is accepted when all of them are. -/
theorem visitAll_all (f : α → Bool) (acc : Bool) (l : List α) :
    (all symbol rule).visitAll f acc l = (acc && l.all f) := by
  induction l generalizing acc with
  | nil => rw [visitAll, List.all_nil, Bool.and_true]
  | cons x rest ih =>
    rw [List.all_cons, ← Bool.and_assoc]
    show (if (!(acc && f x)) = true then acc && f x else _) = _
    cases h : acc && f x with
    | false => rfl
    | true =>
      show (all symbol rule).visitAll f (acc && f x) rest = _
      rw [h, ih]

end All

/-! ### The first answer -/

section Any

variable (symbol : σ → Option R) (rule : Item σ → Rule (Option R))

/-- The answer of a sequence of parts is the first answer of one of them. -/
theorem visitAll_any (f : α → Option R) (acc : Option R) (l : List α) :
    (any symbol rule).visitAll f acc l = acc.or (l.findSome? f) := by
  induction l generalizing acc with
  | nil => rw [visitAll, List.findSome?_nil, Option.or_none]
  | cons x rest ih =>
    show (if (acc.or (f x)).isSome = true then acc.or (f x)
      else (any symbol rule).visitAll f (acc.or (f x)) rest) = _
    rw [ih, List.findSome?_cons, Option.or_assoc]
    cases acc with
    | some a => rfl
    | none => cases f x <;> rfl

end Any

end Pass
end FortranExpr
