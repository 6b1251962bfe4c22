/-
# The shortest decimal that reads back

A positive binary64 value is written with the fewest significant digits that
round to it again.  On the grid of decimals with `d` digits only the two
neighbours of the value can do so, and the nearer one is taken, a tie going to
the even digit; `d = 1, 2, …, 17` are tried in turn.  A value that none of them
gives back is written out exactly.
-/

import FortranExpr.Number.Binary64

namespace FortranExpr

/-- The decimal `digits · 10 ^ exponent`. -/
structure Decimal where
  digits : Nat
  exponent : Int
deriving DecidableEq, Repr

namespace Decimal

/-- The rational that a decimal denotes. -/
def toRat (d : Decimal) : Rat := (d.digits : Rat) * (10 : Rat) ^ d.exponent

/-- The decimal rounds to the binary64 value `q`. -/
def ReadsBack (q : Rat) (d : Decimal) : Prop := Binary64.ofRat d.toRat = .finite q

instance (q : Rat) (d : Decimal) : Decidable (d.ReadsBack q) :=
  inferInstanceAs (Decidable (_ = _))

/-- The `n` with `10 ^ (n - 1) ≤ q < 10 ^ n`, for a positive `q`: the digit counts
of numerator and denominator leave two candidates. -/
def pointPosition (q : Rat) : Int :=
  let n : Int := ((Nat.toDigits 10 q.num.natAbs).length : Int) -
    ((Nat.toDigits 10 q.den).length : Int)
  if (10 : Rat) ^ n ≤ q then n + 1 else n

/-- The neighbour of `q` on the grid of step `10 ^ e` that reads back as `q`, the
nearer one where both do. -/
def onGrid? (q : Rat) (e : Int) : Option Decimal :=
  let scaled := q / (10 : Rat) ^ e
  let below := scaled.floor.toNat
  let lower : Decimal := ⟨below, e⟩
  let upper : Decimal := ⟨below + 1, e⟩
  if lower.ReadsBack q then
    if upper.ReadsBack q then
      let rest := scaled - below
      if rest < 1 / 2 then some lower
      else if 1 / 2 < rest then some upper
      else if below % 2 = 0 then some lower else some upper
    else some lower
  else if upper.ReadsBack q then some upper
  else none

/-- The full decimal expansion of a rational whose denominator is a power of two. -/
def exact (q : Rat) : Decimal :=
  ⟨q.num.natAbs * Nat.pow 5 q.den.log2, -(q.den.log2 : Int)⟩

/-- The decimal of fewest digits that reads back as the positive value `q`. -/
def shortest (q : Rat) : Decimal :=
  let n := pointPosition q
  ((List.range 17).findSome? fun (k : Nat) => onGrid? q (n - (k + 1))).getD (exact q)

/-- The significant digits, without zeros at the end, and the position `n` of the
decimal point: the value is `0.digits · 10 ^ n`. -/
def toDigits (d : Decimal) : List Char × Int :=
  let all := Nat.toDigits 10 d.digits
  ((all.reverse.dropWhile (· == '0')).reverse, all.length + d.exponent)

end Decimal
end FortranExpr
