/-
# Hexadecimal digits

A bit pattern is written with the digits `0` … `9`, `a` … `f`, most significant
first and without zeros in front; it is read with letters of either case and any
number of zeros in front.
-/

namespace FortranExpr
namespace Hexadecimal

/-- The value of a digit of either case. -/
def digitValue? (c : Char) : Option Nat :=
  if '0' ≤ c ∧ c ≤ '9' then some (c.toNat - '0'.toNat)
  else if 'a' ≤ c ∧ c ≤ 'f' then some (c.toNat - 'a'.toNat + 10)
  else if 'A' ≤ c ∧ c ≤ 'F' then some (c.toNat - 'A'.toNat + 10)
  else none

/-- The digit of a value below 16. -/
def digit (n : Nat) : Char :=
  if n < 10 then Char.ofNat ('0'.toNat + n) else Char.ofNat ('a'.toNat + (n - 10))

/-- Continues reading after digits that denote `acc`. -/
def readFrom? (acc : Nat) : List Char → Option Nat
  | [] => some acc
  | c :: rest => (digitValue? c).bind fun d => readFrom? (16 * acc + d) rest

/-- The number that a non-empty sequence of digits denotes. -/
def read? : List Char → Option Nat
  | [] => none
  | digits => readFrom? 0 digits

/-- The digits of a number. -/
def digits (n : Nat) : List Char :=
  if _h : n < 16 then [digit n]
  else digits (n / 16) ++ [digit (n % 16)]
termination_by n
decreasing_by omega

/-- The digits of an integer, with a sign in front of a negative one. -/
def ofInt : Int → List Char
  | .ofNat n => digits n
  | .negSucc n => '-' :: digits (n + 1)

end Hexadecimal
end FortranExpr
