/-
# Numbers as text

| value | text |
| --- | --- |
| zero | `0` |
| `10⁻⁶ ≤ q < 10²¹` | plain decimals: `100000`, `1.5`, `0.000001` |
| smaller or larger | one digit, fraction, signed exponent: `1e+21`, `1.5e-7` |
| not finite | `Infinity`, `-Infinity`, `NaN` |

The digits are those of `Decimal.shortest`; an integer of any size that is not a
binary64 number has all its digits (`Int.repr`).
-/

import FortranExpr.Number.Shortest

namespace FortranExpr

/-- Where the decimal point may stand, counted from the first significant digit,
for a number to be written without an exponent. -/
structure PlainRange where
  first : Int
  last : Int

/-- Plain decimals begin at `0.000001` and end below `10 ^ 21`. -/
def plainRange : PlainRange := ⟨-5, 21⟩

/-- Writes significant digits with the decimal point after the first `n` of them. -/
def layoutDigits (range : PlainRange) (digits : List Char) (n : Int) : List Char :=
  if range.first ≤ n ∧ n ≤ range.last then
    if n ≤ 0 then '0' :: '.' :: List.replicate (-n).toNat '0' ++ digits
    else
      let whole := digits.take n.toNat ++ List.replicate (n.toNat - digits.length) '0'
      match digits.drop n.toNat with
      | [] => whole
      | fraction => whole ++ '.' :: fraction
  else
    let e := n - 1
    let exponent := (if e < 0 then '-' else '+') :: Nat.toDigits 10 e.natAbs
    match digits with
    | [] => 'e' :: exponent
    | [d] => d :: 'e' :: exponent
    | d :: fraction => d :: '.' :: fraction ++ 'e' :: exponent

namespace Binary64

/-- The text of a number. -/
def text : Binary64 → String
  | nan => "NaN"
  | infinity negative => if negative then "-Infinity" else "Infinity"
  | finite q =>
    if q = 0 then "0"
    else
      let (digits, n) := (Decimal.shortest (magnitude q)).toDigits
      let written := layoutDigits plainRange digits n
      String.ofList (if q < 0 then '-' :: written else written)

end Binary64
end FortranExpr
