/-
# Literals as divisors and as strides

A literal is read in two ways: a divisor asks for its value, of any category, and a stride for the
integer that it is.

| literal, in parentheses or not | value | integer |
| --- | --- | --- |
| scalar of category integer, of a whole number or an integer `n` | it | `n` |
| scalar of category integer, of any other value | it | none |
| scalar of another category | it | none |
| array | none | none |

Where both readers have an answer they agree on it (`integerValue?_iff_scalarValue?`), on zero
too, so a divisor that is the integer zero is never overlooked (`literalReaders_agree`).
-/

import FortranExpr.Proofs.Analysis.Constancy

namespace FortranExpr

theorem Value.isInt_iff {v : Value} {n : Int} :
    v.IsInt n ↔ v = .integer n ∨ v = .number (.finite n) := by
  constructor
  · rintro (_ | _)
    · exact .inl rfl
    · exact .inr rfl
  · rintro (rfl | rfl)
    · exact .integer n
    · exact .number n

/-- The test for zero finds the integer zero, in either representation. -/
theorem Value.IsInt.isZero_iff {v : Value} {n : Int} (h : v.IsInt n) : v.isZero = true ↔ n = 0 := by
  cases h with
  | integer n => exact decide_eq_true_iff
  | number n =>
    have hzero : Binary64.finite (n : Rat) = 0 ↔ (n : Rat) = 0 :=
      ⟨Binary64.finite.inj, congrArg Binary64.finite⟩
    rw [isZero, decide_eq_true_iff, hzero]
    exact Rat.intCast_eq_zero_iff

namespace Expr

section Readers

variable {σ : Type}

theorem Wraps.constant_unique {e : Expr σ} {c d : Constant} (hc : e.Wraps (.constant c))
    (hd : e.Wraps (.constant d)) : c = d :=
  Expr.constant.inj
    ((unwrap_eq_constant_iff.2 hc).symm.trans (unwrap_eq_constant_iff.2 hd))

/-- **The integer of a literal** is its value, where this is an integer and the category is. -/
theorem integerValue?_iff_scalarValue? {e : Expr σ} {n : Int} :
    e.integerValue? = some n ↔
      (∃ c, e.Wraps (.constant c) ∧ c.category = .integer) ∧
        ∃ v, e.scalarValue? = some v ∧ v.IsInt n := by
  rw [integerValue?_eq_some_iff]
  constructor
  · rintro ⟨c, v, hc, hcategory, hshape, hvalue, hn⟩
    exact ⟨⟨c, hc, hcategory⟩, v, scalarValue?_eq_some_iff.2 ⟨c, hc, hshape, hvalue⟩, hn⟩
  · rintro ⟨⟨c, hc, hcategory⟩, v, hv, hn⟩
    obtain ⟨d, hd, hshape, hvalue⟩ := scalarValue?_eq_some_iff.1 hv
    obtain rfl := hc.constant_unique hd
    exact ⟨c, v, hc, hcategory, hshape, hvalue, hn⟩

end Readers

/-- A literal is constant, in parentheses or not. -/
theorem Wraps.isConstant {e : Expr Symbol} {c : Constant} (h : e.Wraps (.constant c)) :
    e.isConstant = true := by
  generalize hx : (constant c : Expr Symbol) = x at h
  induction h with
  | bare =>
    subst hx
    exact (visit_constancy_usual rfl rfl).2 nofun
  | parens _ ih =>
    refine (visit_constancy_usual rfl rfl).2 fun part hpart => ?_
    cases hpart
    exact ih hx

/-- **An integer division is constant** exactly when what is divided is, and the divisor is a
literal other than zero. -/
theorem isConstant_division_iff {left right : Expr Symbol} :
    (binary .divide .integer left right).isConstant = true ↔
      left.isConstant = true ∧ right.IsDivisor := by
  constructor
  · intro h
    obtain ⟨hdivisor, hparts⟩ := (visit_constancy_iff _).1 h
    exact ⟨hparts trivial _ .left, hdivisor rfl rfl⟩
  · rintro ⟨hleft, hright⟩
    refine (visit_constancy_iff _).2 ⟨fun _ _ => hright, fun _ part hpart => ?_⟩
    obtain ⟨v, ⟨c, hc, -⟩, -⟩ := hright
    cases hpart with
    | left => exact hleft
    | right => exact hc.isConstant

theorem isDivisor_iff_scalarValue? {e : Expr Symbol} :
    e.IsDivisor ↔ ∃ v, e.scalarValue? = some v ∧ v.isZero = false := by
  rw [← isNonzeroLiteral_iff, isNonzeroLiteral, Option.any_eq_true]
  exact exists_congr fun v => and_congr_right fun _ => by rw [Bool.not_eq_true']

/-- **The two readers of literals agree.**

The integer of an expression is `n` exactly when there is a literal of category integer in any
number of parentheses, and the value of the expression is the integer `n` or the whole number `n`;
that value then passes the test for zero exactly when `n` is zero.  The integer division of
something constant by the expression is constant exactly when the expression has a value, and not
zero; and no integer division is constant whose divisor has the integer zero. -/
theorem literalReaders_agree (e : Expr Symbol) :
    (∀ n : Int, e.integerValue? = some n ↔
      (∃ c, e.Wraps (.constant c) ∧ c.category = .integer) ∧
        ∃ v, e.scalarValue? = some v ∧ (v = .integer n ∨ v = .number (.finite n))) ∧
    (∀ n v, e.integerValue? = some n → e.scalarValue? = some v → (v.isZero = true ↔ n = 0)) ∧
    (∀ left : Expr Symbol, left.isConstant = true →
      ((binary .divide .integer left e).isConstant = true ↔
        ∃ v, e.scalarValue? = some v ∧ v.isZero = false)) ∧
    (e.integerValue? = some 0 →
      ∀ left : Expr Symbol, (binary .divide .integer left e).isConstant = false) := by
  have hzero (n : Int) (v : Value) (hn : e.integerValue? = some n)
      (hv : e.scalarValue? = some v) : v.isZero = true ↔ n = 0 := by
    obtain ⟨-, w, hw, hint⟩ := integerValue?_iff_scalarValue?.1 hn
    obtain rfl := Option.some.inj (hv.symm.trans hw)
    exact hint.isZero_iff
  refine ⟨fun n => ?_, hzero, fun left hleft => ?_, fun hn left => ?_⟩
  · rw [integerValue?_iff_scalarValue?]
    refine and_congr_right fun _ => exists_congr fun v => and_congr_right fun _ => ?_
    exact Value.isInt_iff
  · rw [isConstant_division_iff, and_iff_right hleft, isDivisor_iff_scalarValue?]
  · rw [← Bool.not_eq_true, isConstant_division_iff, isDivisor_iff_scalarValue?]
    rintro ⟨-, v, hv, hnonzero⟩
    rw [(hzero 0 v hn hv).2 rfl] at hnonzero
    cases hnonzero

/-- A literal of category integer in two pairs of parentheses. -/
def nestedLiteral (x : Binary64) : Expr Symbol :=
  .parens (.parens (.constant ⟨.integer, [.number x], []⟩))

/-- Zero is no divisor, and a fraction is one although it is no integer. -/
theorem literalReaders_agree_nestedLiteral :
    (nestedLiteral 0).integerValue? = some 0 ∧
      (binary .divide .integer (nestedLiteral 1) (nestedLiteral 0)).isConstant = false ∧
      (nestedLiteral (.finite (5 / 2))).integerValue? = none ∧
      (binary .divide .integer (nestedLiteral 1) (nestedLiteral (.finite (5 / 2)))).isConstant =
        true := by
  have hzero : (nestedLiteral 0).integerValue? = some 0 := by decide +kernel
  have hone : (nestedLiteral 1).isConstant = true :=
    (Wraps.parens (.parens .bare)).isConstant
  have hfraction : (nestedLiteral (.finite (5 / 2))).scalarValue? =
      some (.number (.finite (5 / 2))) := rfl
  have hnone : (nestedLiteral (.finite (5 / 2))).integerValue? = none := by decide +kernel
  refine ⟨hzero, (literalReaders_agree _).2.2.2 hzero _, hnone, ?_⟩
  exact ((literalReaders_agree _).2.2.1 _ hone).2 ⟨_, hfraction, by decide +kernel⟩

end Expr
end FortranExpr
