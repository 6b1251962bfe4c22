/-
# Why a text is not JSON

An error splits the text in front of the first character that cannot be read, and
says what is wrong there.  Positions count 16-bit units from zero; lines and columns
count from one.

| fault | message |
| --- | --- |
| `unexpected`, at the end | `Unexpected end of JSON input` |
| `unexpected`, at a digit or `-` | `Unexpected number in JSON at position 1 (line 1 column 2)` |
| `unexpected`, at a quote | `Unexpected string in JSON at position 2 (line 1 column 3)` |
| `unexpected`, at another character | `Unexpected token 'x', "[x]" is not valid JSON` |
| another one | what is wrong, with the position, the line and the column |

An unexpected character is shown in its surroundings: a text of at most 20 units as a
whole, of a longer one ten units before the character and ten from it on.
-/

import FortranExpr.Text.Units

namespace FortranExpr
namespace Json

/-- What can be wrong with a text. -/
inductive Fault where
  | unexpected
  | minusAlone
  | unfinishedFraction
  | unfinishedExponent
  | unfinishedString
  | controlCharacter
  | badEscape
  | badUnicodeEscape
  | firstNameMissing
  | nameMissing
  | colonMissing
  | itemNotSeparated
  | memberNotSeparated
  | trailingText
deriving DecidableEq

/-- A fault of a text between two parts of it. -/
structure SyntaxError where
  fault : Fault
  before : List Char
  after : List Char
deriving DecidableEq

namespace SyntaxError

/-- The line and the column behind a text, when it begins at the given ones. -/
def placeFrom (line column : Nat) : List Char → Nat × Nat
  | [] => (line, column)
  | '\r' :: '\n' :: rest => placeFrom (line + 1) 1 rest
  | c :: rest =>
    if c = '\r' ∨ c = '\n' then placeFrom (line + 1) 1 rest
    else placeFrom line (column + (Units.ofChar c).length) rest

/-- The number of units before the error. -/
def position (e : SyntaxError) : Nat := (Units.encode e.before).length

/-- The position, the line and the column in words. -/
def place (e : SyntaxError) : String :=
  let (line, column) := placeFrom 1 1 e.before
  " JSON at position " ++ Nat.repr e.position ++
    " (line " ++ Nat.repr line ++ " column " ++ Nat.repr column ++ ")"

/-- A text between double quotes. -/
def inQuotes (units : List Nat) : String := "\"" ++ String.ofList (Units.decode units) ++ "\""

/-- The number of units that are shown on either side of an error. -/
def margin : Nat := 10

/-- The surroundings of the error. -/
def surroundings (e : SyntaxError) : String :=
  let before := Units.encode e.before
  let after := Units.encode e.after
  if before.length + after.length ≤ 2 * margin then inQuotes (before ++ after)
  else
    (if margin ≤ before.length then "..." else "") ++
      inQuotes (before.drop (before.length - margin) ++ after.take margin) ++
      (if margin < after.length then "..." else "")

/-- Texts that spell a value for which JSON has no text. -/
def valueNames : List String := ["NaN", "Infinity", "undefined", "[object Object]"]

/-- The message about something unexpected. -/
def unexpectedMessage (e : SyntaxError) : String :=
  match e.after with
  | [] => "Unexpected end of JSON input"
  | c :: _ =>
    if c.isDigit || c == '-' then "Unexpected number in" ++ e.place
    else if c == '"' then "Unexpected string in" ++ e.place
    else if valueNames.contains (String.ofList (e.before ++ e.after)) then
      inQuotes (Units.encode (e.before ++ e.after)) ++ " is not valid JSON"
    else
      "Unexpected token '" ++ String.ofList (Units.decode ((Units.ofChar c).take 1)) ++ "', " ++
        e.surroundings ++ " is not valid JSON"

/-- The error in words. -/
def message (e : SyntaxError) : String :=
  match e.fault with
  | .unexpected => e.unexpectedMessage
  | .minusAlone => "No number after minus sign in" ++ e.place
  | .unfinishedFraction => "Unterminated fractional number in" ++ e.place
  | .unfinishedExponent => "Exponent part is missing a number in" ++ e.place
  | .unfinishedString => "Unterminated string in" ++ e.place
  | .controlCharacter => "Bad control character in string literal in" ++ e.place
  | .badEscape => "Bad escaped character in" ++ e.place
  | .badUnicodeEscape => "Bad Unicode escape in" ++ e.place
  | .firstNameMissing => "Expected property name or '\x7d' in" ++ e.place
  | .nameMissing => "Expected double-quoted property name in" ++ e.place
  | .colonMissing => "Expected ':' after property name in" ++ e.place
  | .itemNotSeparated => "Expected ',' or ']' after array element in" ++ e.place
  | .memberNotSeparated => "Expected ',' or '\x7d' after property value in" ++ e.place
  | .trailingText => "Unexpected non-whitespace character after" ++ e.place

end SyntaxError
end Json
end FortranExpr
