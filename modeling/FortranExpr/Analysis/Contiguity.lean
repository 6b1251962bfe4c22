/-
# Simple contiguity

A designator is simply contiguous when its form alone shows that its elements fill a
range of storage without gaps.

| node | verdict |
| --- | --- |
| a name | CONTIGUOUS or scalar; else no pointer, and not of assumed shape or rank |
| a component | its base is scalar, and the component is contiguous as a name |
| an array reference | the last name is contiguous, the subscripts are `contiguousRank?`, and a base of positive rank is not followed by elements only |
| a coindexed reference | the subscripts are `contiguousRank?` |
| a call | its result is a contiguous data pointer |
| a part of a complex value, a substring | no |

What is no variable is always contiguous.  `none` stands for a verdict that no rule
gives.
-/

import FortranExpr.Expr.Rank
import FortranExpr.Traversal.Pass

namespace FortranExpr

namespace Triplet

variable {σ : Type}

/-- The section steps by one: its stride is left out, or is the integer literal 1. -/
def isUnitStride (t : Triplet σ) : Bool :=
  match t.stride with
  | .empty => true
  | .filled e => decide (e.integerValue? = some 1)

/-- The section has neither a lower nor an upper bound. -/
def isUnbounded (t : Triplet σ) : Bool :=
  match t.lower, t.upper with
  | .empty, .empty => true
  | _, _ => false

end Triplet

namespace Subscript

/-- Scans subscripts from the last to the first, `triplets` of them being sections so
far.  A section has unit stride, and no bounds when a section follows it; an element
is followed by no section and is no vector. -/
def scanContiguous? (triplets : Nat) : List (Subscript Symbol) → Option Nat
  | [] => some triplets
  | .triplet t :: rest =>
    if t.isUnitStride && (triplets == 0 || t.isUnbounded) then
      scanContiguous? (triplets + 1) rest
    else none
  | .element e :: rest =>
    if triplets != 0 || e.rank.isPositive then none else scanContiguous? triplets rest

/-- The rank of a section whose subscripts allow it to be contiguous. -/
def contiguousRank? (subscripts : List (Subscript Symbol)) : Option Nat :=
  scanContiguous? 0 subscripts.reverse

end Subscript

namespace Symbol

/-- A name stands for storage without gaps.  An ALLOCATABLE object is of deferred shape,
and is always allocated as a whole. -/
def isContiguous (s : Symbol) : Bool :=
  let u := s.ultimate
  if u.has .contiguous || decide (u.rank = 0) then true
  else if u.isPointer then false
  else
    match u.details with
    | .object declared =>
      decide (declared.shape ≠ .assumedShape) && decide (declared.shape ≠ .assumedRank)
    | _ => false

end Symbol

namespace Expr

/-- The contiguity of an array reference. -/
def isContiguousRef (base : DataRef Symbol) (subscripts : List (Subscript Symbol)) : Bool :=
  base.lastSymbol.isContiguous &&
    match Subscript.contiguousRank? subscripts with
    | none => false
    | some rank => decide (0 < rank) || decide ((arrayRef base subscripts).rank = 0)

/-- How the contiguity of an item is decided. -/
def contiguityRule (table : IntrinsicTable) : Item Symbol → Rule (Option Bool)
  | .expr (.arrayRef base subscripts) => .answer (some (isContiguousRef base subscripts))
  | .expr (.coindexed _ subscripts _ _ _) =>
    .answer (some (Subscript.contiguousRank? subscripts).isSome)
  | .expr (.entity (.component base c)) =>
    .answer (some (decide (base.rank = 0) && c.isContiguous))
  | .expr (.complexPart _ _) | .expr (.substring _ _ _) => .answer (some false)
  | .expr (.call proc _ _) =>
    .answer (some ((proc.result? table).any FunctionResult.isContiguousPointer))
  | _ => .usual

/-- The pass that decides the contiguity of a variable. -/
def contiguity (table : IntrinsicTable) : Pass Symbol (Option Bool) :=
  .any (fun s => some s.isContiguous) (contiguityRule table)

/-- The simple contiguity of an expression, as far as a rule gives it. -/
def contiguous? (e : Expr Symbol) (table : IntrinsicTable) : Option Bool :=
  if e.isVariable then (contiguity table).run e else some true

/-- The expression is known to be simply contiguous. -/
def isSimplyContiguous (e : Expr Symbol) (table : IntrinsicTable) : Bool :=
  e.contiguous? table == some true

end Expr
end FortranExpr
