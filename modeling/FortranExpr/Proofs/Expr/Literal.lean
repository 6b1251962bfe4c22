/-
# Literals under parentheses

Parentheses around a literal change nothing: its value is that of the literal itself.
`Wraps` says that one expression is another one in any number of parentheses, and the
two readers of literals are characterized by it:

| reader | reads |
| --- | --- |
| `scalarValue?` | the value of a scalar literal |
| `integerValue?` | the integer that the value of a scalar integer literal equals |

The text of a scalar literal is that of its value (`Constant.text_of_scalar?`).
-/

import FortranExpr.Expr.Printer

namespace FortranExpr

variable {σ : Type}

namespace Value

/-- The value is a given integer, as a number or as an integer. -/
inductive IsInt : Value → Int → Prop
  | integer (n : Int) : IsInt (.integer n) n
  | number (n : Int) : IsInt (.number (.finite n)) n

/-- The reader of integers against what it is to be one. -/
theorem toInt?_eq_some_iff {v : Value} {n : Int} : v.toInt? = some n ↔ v.IsInt n := by
  constructor
  · intro h
    cases v with
    | integer m =>
      obtain rfl := Option.some.inj h
      exact .integer m
    | number x =>
      cases x with
      | finite q =>
        simp only [toInt?, Binary64.toInt?] at h
        split at h
        · rename_i hden
          obtain rfl := Option.some.inj h
          have hq : ((q.num : Int) : Rat) = q := Rat.ext rfl hden.symm
          have hnum := IsInt.number q.num
          rwa [hq] at hnum
        · cases h
      | infinity | nan => cases h
    | characters | logical => cases h
  · rintro (_ | _)
    · rfl
    · rfl

end Value

namespace Expr

/-- `e.Wraps x`: the expression `e` is `x` in any number of parentheses. -/
inductive Wraps : Expr σ → Expr σ → Prop
  | bare {e} : Wraps e e
  | parens {e x} : Wraps e x → Wraps (.parens e) x

/-- A scalar literal of a given value, in parentheses or not. -/
def IsScalarLiteral (e : Expr σ) (v : Value) : Prop :=
  ∃ c, e.Wraps (.constant c) ∧ c.shape = [] ∧ c.values.head? = some v

/-- A scalar integer literal that equals a given integer, in parentheses or not. -/
def IsIntegerLiteral (e : Expr σ) (n : Int) : Prop :=
  ∃ c v, e.Wraps (.constant c) ∧ c.category = .integer ∧ c.shape = [] ∧
    c.values.head? = some v ∧ v.IsInt n

/-- Parentheses are taken off all at once. -/
theorem Wraps.unwrap_eq {e x : Expr σ} (h : e.Wraps x) : e.unwrap = x.unwrap := by
  induction h with
  | bare => rfl
  | parens _ ih => rw [unwrap, ih]

/-- What is left is what they were around. -/
theorem wraps_unwrap (e : Expr σ) : e.Wraps e.unwrap := by
  fun_induction unwrap e with
  | case1 operand ih => exact .parens ih
  | case2 => exact .bare

/-- A literal is left exactly when the expression is one in parentheses. -/
theorem unwrap_eq_constant_iff {e : Expr σ} {c : Constant} :
    e.unwrap = .constant c ↔ e.Wraps (.constant c) := by
  constructor
  · intro h
    rw [← h]
    exact e.wraps_unwrap
  · intro h
    rw [h.unwrap_eq, unwrap]
    intro operand he
    cases he

/-- A scalar literal has no shape, and its value is the first one. -/
theorem constant_scalar?_eq_some_iff {c : Constant} {v : Value} :
    c.scalar? = some v ↔ c.shape = [] ∧ c.values.head? = some v := by
  unfold Constant.scalar?
  split
  · rename_i hshape
    exact ⟨fun h => ⟨hshape, h⟩, fun h => h.2⟩
  · rename_i hshape
    constructor
    · intro h
      cases h
    · rintro ⟨h, _⟩
      rw [hshape] at h
      cases h

/-- The reader of scalars finds scalar literals, inside any parentheses. -/
theorem scalarValue?_eq_some_iff {e : Expr σ} {v : Value} :
    e.scalarValue? = some v ↔ e.IsScalarLiteral v := by
  constructor
  · intro h
    unfold scalarValue? at h
    split at h
    · rename_i c hc
      exact ⟨c, unwrap_eq_constant_iff.1 hc, constant_scalar?_eq_some_iff.1 h⟩
    · cases h
  · rintro ⟨c, hc, hv⟩
    rw [scalarValue?, unwrap_eq_constant_iff.2 hc]
    exact constant_scalar?_eq_some_iff.2 hv

/-- The reader of integers finds integer literals, inside any parentheses. -/
theorem integerValue?_eq_some_iff {e : Expr σ} {n : Int} :
    e.integerValue? = some n ↔ e.IsIntegerLiteral n := by
  constructor
  · intro h
    unfold integerValue? at h
    split at h
    · rename_i c hc
      split at h
      · rename_i hcat
        obtain ⟨v, hv, hn⟩ := Option.bind_eq_some_iff.1 h
        obtain ⟨hshape, hhead⟩ := constant_scalar?_eq_some_iff.1 hv
        exact ⟨c, v, unwrap_eq_constant_iff.1 hc, hcat, hshape, hhead,
          Value.toInt?_eq_some_iff.1 hn⟩
      · cases h
    · cases h
  · rintro ⟨c, v, hc, hcat, hshape, hhead, hn⟩
    have hv : c.scalar? = some v := constant_scalar?_eq_some_iff.2 ⟨hshape, hhead⟩
    rw [integerValue?, unwrap_eq_constant_iff.2 hc]
    show (if c.category = .integer then c.scalar?.bind Value.toInt? else none) = some n
    rw [if_pos hcat, hv]
    exact Value.toInt?_eq_some_iff.2 hn

end Expr

/-- A scalar literal is printed as its value. -/
theorem Constant.text_of_scalar? {c : Constant} {v : Value} (h : c.scalar? = some v) :
    c.text = v.literal c.category := by
  obtain ⟨hshape, hhead⟩ := Expr.constant_scalar?_eq_some_iff.1 h
  rw [text, hshape]
  dsimp only
  rw [List.headD_eq_head?_getD, List.head?_map, hhead]
  rfl

end FortranExpr
