/-
# Parentheses change no answer

Parentheses around a part of an expression, and around the whole, are never the reason for
an answer: rank, constancy, the problem of a specification and the judgement on an initial
data target are the same without any of them.

A walk treats parentheses like every other item, by going on to the operand.  So it is
enough that a pass has the same rule for an item and for what is left of it
(`Pass.IgnoresParens`, `Pass.visit_dropParens`).  Three rules look further into an item than
the walk does: the divisor of a division has to be a literal, a subscript has to be a
constant scalar, and bounds have to be constant.
-/

import FortranExpr.Proofs.Analysis.InitialTarget
import FortranExpr.Proofs.Analysis.Constancy
import FortranExpr.Proofs.Expr.Parentheses
import FortranExpr.Report

namespace FortranExpr

variable {σ R : Type}

/-! ### Passes that take no notice of parentheses -/

namespace Pass

/-- The pass goes on to the operand of parentheses, and its rule for every other item does
not depend on parentheses inside. -/
structure IgnoresParens (p : Pass σ R) : Prop where
  start_combine : ∀ r, p.combine p.start r = r
  onVisit : ∀ i r, p.onVisit i r = r
  rule_parens : ∀ operand, p.rule (.expr (.parens operand)) = .usual
  rule_dropParens : ∀ i : Item σ, (∀ operand, i ≠ .expr (.parens operand)) →
    p.rule i.dropParens = p.rule i

/-- **Such a pass has the same result without parentheses.** -/
theorem visit_dropParens {p : Pass σ R} (hp : p.IgnoresParens) (i : Item σ) :
    p.visit i.dropParens = p.visit i := by
  induction i using Item.induction with
  | step i ih =>
    by_cases hparens : ∃ operand, i = .expr (.parens operand)
    · obtain ⟨operand, rfl⟩ := hparens
      rw [visit_of_usual p (hp.rule_parens operand) rfl, hp.onVisit, Item.dropParens_expr,
        Expr.dropParens_parens]
      show p.visit (.expr operand.dropParens) = p.visitAll p.visit p.start [.expr operand]
      rw [visitAll_singleton, hp.start_combine]
      exact ih (.expr operand) List.mem_cons_self
    · have hother : ∀ operand, i ≠ .expr (.parens operand) := not_exists.1 hparens
      have through (acc : R) {l : List (Item σ)} (hl : ∀ c ∈ l, c ∈ i.children) :
          p.visitAll p.visit acc (l.map Item.dropParens) = p.visitAll p.visit acc l := by
        rw [visitAll_map]
        exact visitAll_congr p (fun c hc => ih c (hl c hc)) acc
      rw [visit_eq, visit_eq, hp.onVisit, hp.onVisit, hp.rule_dropParens i hother,
        Item.named?_dropParens hother, Item.children_dropParens hother, ← List.map_take,
        ← List.map_drop, through _ fun c hc => hc]
      simp only [through _ fun c hc => List.mem_of_mem_take hc,
        through _ fun c hc => List.mem_of_mem_drop hc]

end Pass

namespace Expr

/-! ### Constancy -/

/-- A literal is looked for inside parentheses anyway. -/
theorem isNonzeroLiteral_dropParens (e : Expr σ) :
    e.dropParens.isNonzeroLiteral = e.isNonzeroLiteral := by
  rw [isNonzeroLiteral, scalarValue?_dropParens, isNonzeroLiteral]

/-- Parentheses change nothing in the pass for constancy. -/
theorem constancy_ignoresParens : constancy.IgnoresParens where
  start_combine := Bool.true_and
  onVisit _ _ := rfl
  rule_parens _ := rfl
  rule_dropParens i h := by
    show constancyRule i.dropParens = constancyRule i
    cases i with
    | expr e =>
      cases e with
      | parens operand => exact absurd rfl (h operand)
      | binary op category left right =>
        rw [Item.dropParens_expr, Expr.dropParens, constancyRule_binary, constancyRule_binary,
          isNonzeroLiteral_dropParens]
      | typeParamInquiry parameter base =>
        cases base <;> simp [Expr.dropParens, constancyRule]
      | _ => simp [Expr.dropParens, constancyRule]
    | param v => cases v <;> simp [ParamValue.dropParens, constancyRule]
    | _ => rfl

/-- An expression is constant with or without its parentheses. -/
theorem isConstant_dropParens (e : Expr Symbol) : e.dropParens.isConstant = e.isConstant :=
  Pass.visit_dropParens constancy_ignoresParens (.expr e)

/-! ### Specifications -/

/-- Parentheses change nothing in the pass for specifications, whatever the scope. -/
theorem specification_ignoresParens (scope : Scope) : (specification scope).IgnoresParens where
  start_combine _ := Option.none_or
  onVisit _ _ := rfl
  rule_parens _ := rfl
  rule_dropParens i h := by
    show specificationRule i.dropParens = specificationRule i
    cases i with
    | expr e =>
      cases e with
      | parens operand => exact absurd rfl (h operand)
      | entity ref => cases ref <;> simp [Expr.dropParens, DataRef.dropParens, specificationRule]
      | call proc args rank =>
        cases proc <;> simp [Expr.dropParens, specificationRule, isConstant_call]
      | typeParamInquiry parameter base =>
        cases base <;> simp [Expr.dropParens, specificationRule]
      | _ => simp [Expr.dropParens, specificationRule]
    | _ => rfl

/-! ### Initial data targets -/

/-- What stands in a slot is constant with or without parentheses. -/
theorem slot_isConstant_dropParens (s : Slot Symbol) : s.dropParens.isConstant = s.isConstant := by
  cases s with
  | empty => rw [Slot.dropParens]
  | filled e =>
    rw [Slot.dropParens]
    exact isConstant_dropParens e

/-- A subscript is static with or without parentheses. -/
theorem subscript_isStatic_dropParens (s : Subscript Symbol) :
    s.dropParens.isStatic = s.isStatic := by
  cases s with
  | element e =>
    rw [Subscript.dropParens, Subscript.isStatic, Subscript.isStatic, rank_dropParens,
      isConstant_dropParens]
  | triplet t =>
    obtain ⟨lower, upper, stride⟩ := t
    rw [Subscript.dropParens, Triplet.dropParens, Subscript.isStatic, Subscript.isStatic,
      slot_isConstant_dropParens, slot_isConstant_dropParens, slot_isConstant_dropParens]

/-- Parentheses change nothing in the pass for initial data targets. -/
theorem initialTarget_ignoresParens : initialTarget.IgnoresParens where
  start_combine := TargetVerdict.plain_true_and
  onVisit _ _ := rfl
  rule_parens _ := rfl
  rule_dropParens i h := by
    show targetRule i.dropParens = targetRule i
    cases i with
    | expr e =>
      cases e with
      | parens operand => exact absurd rfl (h operand)
      | entity ref => cases ref <;> simp [Expr.dropParens, DataRef.dropParens, targetRule]
      | substring parent lower upper =>
        simp [Expr.dropParens, targetRule, slot_isConstant_dropParens]
      | typeParamInquiry parameter base => cases base <;> simp [Expr.dropParens, targetRule]
      | _ => simp [Expr.dropParens, targetRule]
    | subscript s => simp [targetRule, subscript_isStatic_dropParens]
    | _ => rfl

/-- The verdict on an expression is that on it without parentheses, findings included. -/
theorem targetVerdict_dropParens (e : Expr Symbol) :
    e.dropParens.targetVerdict = e.targetVerdict :=
  Pass.visit_dropParens initialTarget_ignoresParens (.expr e)

/-- **Parentheses are transparent:** when they are dropped at every position, so that none are
left, rank and constancy stay as they are, the problem in every scope is the same, and so are
the verdict on an initial data target and its diagnostics, one after the other. -/
theorem dropParens_transparent (e : Expr Symbol) :
    (∀ path operand, (Item.expr e.dropParens).at? path ≠ some (.expr (.parens operand))) ∧
    e.dropParens.rank = e.rank ∧ e.dropParens.isConstant = e.isConstant ∧
    (∀ scope, e.dropParens.specificationProblem? scope = e.specificationProblem? scope) ∧
    e.dropParens.targetVerdict = e.targetVerdict ∧
    ∀ name scope place, (⟨name, scope, e.dropParens, place⟩ : Check).targetAnswer =
      (⟨name, scope, e, place⟩ : Check).targetAnswer := by
  refine ⟨(Item.expr e).at?_dropParens_ne, e.rank_dropParens, e.isConstant_dropParens,
    fun scope => ?_, e.targetVerdict_dropParens, fun name scope place => ?_⟩
  · exact Pass.visit_dropParens (specification_ignoresParens scope) (.expr e)
  · rw [Check.targetAnswer, targetVerdict_dropParens]
    rfl

end Expr
end FortranExpr
