/-
# Rank, corank and variables

The rank of a reference comes from the one part of it that is an array: the base
of a component, or else the component; the array base of an element, or else the
ranks of the subscripts together.

| expression | rank |
| --- | --- |
| `x` | that of the symbol |
| `b%c` | that of `b` if positive, else that of `c` |
| `x(s, …)` | the sum over the subscripts, a triplet counting 1 |
| `b%c(s, …)` | that of `b` if positive, else the sum |
| `x(s, …)[…]` | the sum, or that of `x` without subscripts |
| operations | the greatest rank of the operands |
-/

import FortranExpr.Symbol

namespace FortranExpr

mutual

/-- The rank of an expression. -/
def Expr.rank : Expr Symbol → Binary64
  | .entity ref => ref.rank
  | .constant c => .ofNat c.shape.length
  | .call _ _ rank => rank
  | .unary _ _ operand => operand.rank
  | .binary _ _ left right => .max left.rank right.rank
  | .parens operand => operand.rank
  | .relational _ left right => .max left.rank right.rank
  | .arrayRef (.symbol _) subscripts => (subscripts.map fun s => s.rank).foldl (· + ·) 0
  | .arrayRef (.component base _) subscripts =>
    if base.rank.isPositive then base.rank
    else (subscripts.map fun s => s.rank).foldl (· + ·) 0
  | .coindexed base [] _ _ _ => base.rank
  | .coindexed _ subscripts _ _ _ => (subscripts.map fun s => s.rank).foldl (· + ·) 0
  | .substring parent _ _ => parent.rank
  | .complexPart complex _ => complex.rank
  | .arrayConstructor _ _ => 1
  | _ => 0

/-- The rank of a named object or a component. -/
def DataRef.rank : DataRef Symbol → Binary64
  | .symbol s => s.rank
  | .component base c => if base.rank.isPositive then base.rank else c.rank

/-- The number of dimensions that a subscript keeps. -/
def Subscript.rank : Subscript Symbol → Binary64
  | .element e => e.rank
  | .triplet _ => 1

end

namespace Expr

/-- Only a name can stand for a coarray as a whole. -/
def corank : Expr Symbol → Binary64
  | entity (.symbol s) => s.corank
  | _ => 0

/-- Designators are variables, a substring is one when its parent is, and so is a call
of a procedure of the program whose result is a data pointer. -/
def isVariable : Expr Symbol → Bool
  | entity _ | arrayRef _ _ | coindexed _ _ _ _ _ | complexPart _ _ => true
  | substring parent _ _ => parent.isVariable
  | call (.user s) _ _ => ((Procedure.user s).result? ∅).any FunctionResult.isDataPointer
  | _ => false

end Expr
end FortranExpr
