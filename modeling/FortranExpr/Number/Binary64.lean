/-
# Numbers of double precision

Every number of a fixture is a binary64 value: a rational on the grid of 53-bit
significands, an infinity, or the result of an undefined operation.

| constructor | stands for |
| --- | --- |
| `finite q` | the rational `q` |
| `infinity negative` | a magnitude of `2 ^ 1024` or more, after rounding |
| `nan` | `∞ - ∞` or `∞ · 0` |

An operation computes the exact rational result and rounds it once (`ofRat`), to
the nearest point of the grid, a tie to the even neighbour.  The two zeros are
one value: no text and no comparison tells them apart.
-/

namespace FortranExpr

/-- A number of double precision. -/
inductive Binary64 where
  | nan
  | infinity (negative : Bool)
  | finite (value : Rat)
deriving DecidableEq, Inhabited

namespace Binary64

instance : Zero Binary64 := ⟨.finite 0⟩

instance : One Binary64 := ⟨.finite 1⟩

/-- The magnitude of a rational. -/
def magnitude (q : Rat) : Rat := if q < 0 then -q else q

/-- The greatest `e` with `2 ^ e ≤ q`, for a positive `q`: the bit lengths of
numerator and denominator leave two candidates. -/
def binaryExponent (q : Rat) : Int :=
  let e : Int := (q.num.natAbs.log2 : Int) - (q.den.log2 : Int)
  if (2 : Rat) ^ e ≤ q then e else e - 1

/-- The distance between neighbours of the grid at a positive magnitude: 53
significant bits, and no bit below `2 ^ (-1074)`. -/
def spacing (q : Rat) : Rat := (2 : Rat) ^ max (binaryExponent q - 52) (-1074)

/-- The nearest integer, a tie to the even one. -/
def nearestInt (q : Rat) : Int :=
  let below := q.floor
  let rest := q - below
  if rest < 1 / 2 then below
  else if 1 / 2 < rest then below + 1
  else if below % 2 = 0 then below else below + 1

/-- The binary64 value nearest to a rational. -/
def ofRat (q : Rat) : Binary64 :=
  if q = 0 then 0
  else
    let unit := spacing (magnitude q)
    let rounded := nearestInt (q / unit) * unit
    if (2 : Rat) ^ (1024 : Nat) ≤ magnitude rounded then infinity (decide (q < 0))
    else finite rounded

/-- The binary64 value nearest to a natural number. -/
def ofNat (n : Nat) : Binary64 := ofRat n

/-- The binary64 value nearest to `± m · 10 ^ e`.  The bounds on the position of
the leading digit keep the powers of ten small: beyond them the value is out of
range whatever its digits are. -/
def ofDecimal (negative : Bool) (m : Nat) (e : Int) : Binary64 :=
  if m = 0 then 0
  else
    let lead : Int := (Nat.toDigits 10 m).length + e
    if 400 < lead then infinity negative
    else if lead < -400 then 0
    else
      let q : Rat := (m : Rat) * (10 : Rat) ^ e
      ofRat (if negative then -q else q)

/-- Sum, rounded once. -/
def add : Binary64 → Binary64 → Binary64
  | finite a, finite b => ofRat (a + b)
  | infinity s, infinity t => if s = t then infinity s else nan
  | infinity s, finite _ | finite _, infinity s => infinity s
  | nan, _ | _, nan => nan

instance : Add Binary64 := ⟨add⟩

/-- Product, rounded once. -/
def mul : Binary64 → Binary64 → Binary64
  | finite a, finite b => ofRat (a * b)
  | infinity s, infinity t => infinity (s != t)
  | infinity s, finite a | finite a, infinity s =>
    if a = 0 then nan else infinity (s != decide (a < 0))
  | nan, _ | _, nan => nan

instance : Mul Binary64 := ⟨mul⟩

/-- Strict order; `nan` is below and above nothing. -/
def less : Binary64 → Binary64 → Bool
  | finite a, finite b => decide (a < b)
  | infinity s, infinity t => s && !t
  | infinity s, finite _ => s
  | finite _, infinity s => !s
  | nan, _ | _, nan => false

/-- Weak order; `nan` is beside every number. -/
def lessEq : Binary64 → Binary64 → Bool
  | finite a, finite b => decide (a ≤ b)
  | infinity s, infinity t => s || !t
  | infinity s, finite _ => s
  | finite _, infinity s => !s
  | nan, _ | _, nan => false

/-- Above zero: neither zero is, nor `nan`. -/
def isPositive (x : Binary64) : Bool := less 0 x

/-- Below zero: neither zero is, nor `nan`. -/
def isNegative (x : Binary64) : Bool := less x 0

/-- The greater of two numbers; `nan` wins over every number. -/
def max (x y : Binary64) : Binary64 :=
  match x, y with
  | nan, _ | _, nan => nan
  | x, y => if less x y then y else x

/-- The integer a number equals, if it equals one. -/
def toInt? : Binary64 → Option Int
  | finite q => if q.den = 1 then some q.num else none
  | _ => none

/-- The natural number a number equals, if it equals one. -/
def toNat? (x : Binary64) : Option Nat :=
  match x.toInt? with
  | some (.ofNat n) => some n
  | _ => none

/-- A whole number that is not negative: a rank, an extent, a line. -/
def isCount (x : Binary64) : Bool := x.toNat?.isSome

end Binary64
end FortranExpr
