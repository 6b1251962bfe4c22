/-
# Constant expressions

An expression is constant when it is built only from values known at compile time.

| node | has to be |
| --- | --- |
| a name, a component, a procedure | a named constant or the index of an implied-DO loop |
| a coindexed reference | nothing makes it constant |
| a call | of the intrinsic `kind` |
| the value of a type parameter | explicit |
| an inquiry about a type parameter | about a kind parameter |
| an integer division | by a literal other than zero |

Nothing is looked at inside a call, a coindexed reference or an inquiry about a type
parameter; of every other node all parts have to be constant.
-/

import FortranExpr.Symbol
import FortranExpr.Traversal.Pass

namespace FortranExpr

namespace Symbol

/-- A symbol that is known at compile time. -/
def isConstant (s : Symbol) : Bool := s.isNamedConstant || s.isImpliedDoIndex

end Symbol

namespace Expr

/-- The expression can divide an integer: a literal other than zero, in parentheses or
not. -/
def isNonzeroLiteral {σ : Type} (e : Expr σ) : Bool :=
  e.scalarValue?.any fun v => !v.isZero

/-- How the constancy of an item is decided where it is more than that of its parts. -/
def constancyRule : Item Symbol → Rule Bool
  | .expr (.typeParamInquiry parameter _) => .answer parameter.isKindParameter
  | .expr (.coindexed _ _ _ _ _) => .answer false
  | .expr (.call proc _ _) => .answer (proc.isIntrinsic "kind")
  | .expr (.binary .divide .integer _ right) =>
    if right.isNonzeroLiteral then .usual else .answer false
  | .param .assumed | .param .deferred => .answer false
  | _ => .usual

/-- The pass that looks for a part that is not constant. -/
def constancy : Pass Symbol Bool := .all Symbol.isConstant constancyRule

/-- The expression is a constant expression. -/
def isConstant (e : Expr Symbol) : Bool := constancy.run e

end Expr
end FortranExpr
