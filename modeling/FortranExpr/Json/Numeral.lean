/-
# Numerals in JSON text

A numeral is read one character at a time.

| read so far | may go on with | may end |
| --- | --- | --- |
| `minus` | a digit | no |
| `zero` | `.`, `e` | yes |
| `whole` | a digit, `.`, `e` | yes |
| `point` | a digit | no |
| `fraction` | a digit, `e` | yes |
| `mark` | a digit, a sign | no |
| `sign` | a digit | no |
| `exponent` | a digit | yes |

A `zero` cannot end in front of a digit.
-/

import FortranExpr.Json.SyntaxError
import FortranExpr.Number.Binary64

namespace FortranExpr
namespace Json

/-- The part of a numeral that was read last. -/
inductive NumeralPart where
  | minus
  | zero
  | whole
  | point
  | fraction
  | mark
  | sign
  | exponent
deriving DecidableEq

/-- A numeral so far: the number without its point, the digits behind the point, and
the exponent. -/
structure Numeral where
  part : NumeralPart
  negative : Bool
  digits : Nat
  places : Nat
  exponentNegative : Bool
  exponent : Nat
deriving DecidableEq

namespace Numeral

/-- Adds a digit to a number. -/
def addDigit (n : Nat) (c : Char) : Nat := 10 * n + (c.toNat - '0'.toNat)

/-- The letter in front of an exponent. -/
def isMark (c : Char) : Bool := c == 'e' || c == 'E'

/-- Adds a digit to the whole part, which has no zero in front. -/
def addWhole (n : Numeral) (c : Char) : Numeral :=
  { n with part := if n.digits = 0 ∧ c = '0' then .zero else .whole, digits := addDigit n.digits c }

/-- Adds a digit to the fraction. -/
def addFraction (n : Numeral) (c : Char) : Numeral :=
  { n with part := .fraction, digits := addDigit n.digits c, places := n.places + 1 }

/-- Adds a digit to the exponent. -/
def addExponent (n : Numeral) (c : Char) : Numeral :=
  { n with part := .exponent, exponent := addDigit n.exponent c }

/-- The numeral with one more character. -/
def next? (n : Numeral) (c : Char) : Option Numeral :=
  match n.part with
  | .minus => if c.isDigit then some (n.addWhole c) else none
  | .zero =>
    if c = '.' then some { n with part := .point }
    else if isMark c then some { n with part := .mark }
    else none
  | .whole =>
    if c.isDigit then some (n.addWhole c)
    else if c = '.' then some { n with part := .point }
    else if isMark c then some { n with part := .mark }
    else none
  | .point => if c.isDigit then some (n.addFraction c) else none
  | .fraction =>
    if c.isDigit then some (n.addFraction c)
    else if isMark c then some { n with part := .mark }
    else none
  | .mark =>
    if c.isDigit then some (n.addExponent c)
    else if c = '+' ∨ c = '-' then some { n with part := .sign, exponentNegative := c = '-' }
    else none
  | .sign | .exponent => if c.isDigit then some (n.addExponent c) else none

/-- The numeral that begins with a character. -/
def begin? (c : Char) : Option Numeral :=
  if c = '-' then some ⟨.minus, true, 0, 0, false, 0⟩
  else next? ⟨.minus, false, 0, 0, false, 0⟩ c

/-- Whether the numeral ends in front of a character, or at the end of the text. -/
def endsBefore (n : Numeral) (c : Option Char) : Bool :=
  match n.part with
  | .zero => c.all fun c => !c.isDigit && (n.next? c).isNone
  | .whole | .fraction | .exponent => c.all fun c => (n.next? c).isNone
  | .minus | .point | .mark | .sign => false

/-- What is wrong when the numeral can neither end nor go on. -/
def fault (n : Numeral) : Fault :=
  match n.part with
  | .minus => .minusAlone
  | .point => .unfinishedFraction
  | .mark | .sign => .unfinishedExponent
  | .zero | .whole | .fraction | .exponent => .unexpected

/-- The number that the numeral denotes. -/
def value (n : Numeral) : Binary64 :=
  let exponent : Int := if n.exponentNegative then -(n.exponent : Int) else n.exponent
  .ofDecimal n.negative n.digits (exponent - n.places)

end Numeral
end Json
end FortranExpr
