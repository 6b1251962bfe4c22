/-
# Reading JSON text

Text is read one character at a time.  The containers that are still open are a
stack of frames, so that a text may nest to any depth.

| the reader stands | and reads |
| --- | --- |
| `between` two tokens | blanks, punctuation, the first character of a value or of a name |
| in a `word` | the rest of `true`, `false` or `null` |
| in a `numeral` | what may go on with it; anything else ends it and is read between tokens |
| in a `text` | characters, the closing quote, a backslash |
| behind a backslash (`escape`, `unit`) | a letter that stands for a character, four hexadecimal digits of a unit |

The first character that cannot be read is where the text stops to be JSON.

An escape may name half of a pair of surrogates without the other half.  Such a unit is no
character: it is read as the replacement character, and so strings that differ only there
are one string.  Strings whose surrogates stand in pairs are kept apart
(`Units.encode_decode_iff`).
-/

import FortranExpr.Json.Basic
import FortranExpr.Json.Numeral
import FortranExpr.Number.Hexadecimal

namespace FortranExpr
namespace Json

/-- A container that is still open, with what it holds so far, last item first, and the
name of the member whose value is read. -/
inductive Frame where
  | items (reversed : List Json)
  | member (reversed : List (String × Json)) (name : String)

/-- What may come next between two tokens. -/
inductive Expecting where
  | value (stack : List Frame)
  | firstItem (stack : List Frame)
  | firstName (stack : List Frame)
  | name (reversed : List (String × Json)) (stack : List Frame)
  | colon (reversed : List (String × Json)) (name : String) (stack : List Frame)
  | afterItem (reversed : List Json) (stack : List Frame)
  | afterMember (reversed : List (String × Json)) (stack : List Frame)
  | nothing (value : Json)

/-- What a string is for. -/
inductive TextRole where
  | value (stack : List Frame)
  | name (reversed : List (String × Json)) (stack : List Frame)

/-- Where the reader stands; strings are kept in units, last unit first. -/
inductive Reader where
  | between (next : Expecting)
  | word (next : Char) (rest : List Char) (value : Json) (stack : List Frame)
  | numeral (n : Numeral) (stack : List Frame)
  | text (reversed : List Nat) (role : TextRole)
  | escape (reversed : List Nat) (role : TextRole)
  | unit (reversed : List Nat) (value remaining : Nat) (role : TextRole)

namespace Expecting

/-- Puts a complete value into the innermost open container. -/
def complete (v : Json) : List Frame → Expecting
  | [] => nothing v
  | .items reversed :: stack => afterItem (v :: reversed) stack
  | .member reversed key :: stack => afterMember ((key, v) :: reversed) stack

/-- Reads the first character of a value. -/
def begin? (stack : List Frame) (c : Char) : Option Reader :=
  match c with
  | '[' => some (.between (firstItem stack))
  | '{' => some (.between (firstName stack))
  | '"' => some (.text [] (.value stack))
  | 't' => some (.word 'r' ['u', 'e'] (.bool true) stack)
  | 'f' => some (.word 'a' ['l', 's', 'e'] (.bool false) stack)
  | 'n' => some (.word 'u' ['l', 'l'] .null stack)
  | c => (Numeral.begin? c).map fun n => .numeral n stack

/-- Reads one character that is no blank. -/
def read? (next : Expecting) (c : Char) : Option Reader :=
  match next, c with
  | value stack, c => begin? stack c
  | firstItem stack, ']' => some (.between (complete (.arr []) stack))
  | firstItem stack, c => begin? (.items [] :: stack) c
  | firstName stack, '}' => some (.between (complete (.obj []) stack))
  | firstName stack, '"' => some (.text [] (.name [] stack))
  | name reversed stack, '"' => some (.text [] (.name reversed stack))
  | colon reversed key stack, ':' => some (.between (value (.member reversed key :: stack)))
  | afterItem reversed stack, ',' => some (.between (value (.items reversed :: stack)))
  | afterItem reversed stack, ']' =>
    some (.between (complete (.arr reversed.reverse) stack))
  | afterMember reversed stack, ',' => some (.between (name reversed stack))
  | afterMember reversed stack, '}' =>
    some (.between (complete (.obj reversed.reverse) stack))
  | _, _ => none

/-- What is wrong when something else comes. -/
def fault : Expecting → Fault
  | value _ | firstItem _ => .unexpected
  | firstName _ => .firstNameMissing
  | name _ _ => .nameMissing
  | colon _ _ _ => .colonMissing
  | afterItem _ _ => .itemNotSeparated
  | afterMember _ _ => .memberNotSeparated
  | nothing _ => .trailingText

end Expecting

/-- What may come behind a string, given its units, last unit first.  Of a surrogate that
stands alone only its place is kept. -/
def TextRole.close (reversed : List Nat) (role : TextRole) : Expecting :=
  let text := String.ofList (Units.decode reversed.reverse)
  match role with
  | value stack => .complete (.str text) stack
  | name members stack => .colon members text stack

/-- The character that a letter after a backslash stands for. -/
def escaped? : Char → Option Char
  | '"' => some '"'
  | '\\' => some '\\'
  | '/' => some '/'
  | 'b' => some '\x08'
  | 'f' => some '\x0c'
  | 'n' => some '\n'
  | 'r' => some '\r'
  | 't' => some '\t'
  | _ => none

/-- Blanks between tokens. -/
def isBlank (c : Char) : Bool := c == ' ' || c == '\t' || c == '\n' || c == '\r'

namespace Reader

/-- Ends a numeral in front of a character that is not part of it. -/
def settle (r : Reader) (c : Option Char) : Reader :=
  match r with
  | numeral n stack =>
    if n.endsBefore c then between (.complete (.num n.value) stack) else numeral n stack
  | r => r

/-- Reads one character. -/
def read? (r : Reader) (c : Char) : Option Reader :=
  match r with
  | between next => if isBlank c then some (between next) else next.read? c
  | word next rest value stack =>
    if c = next then
      match rest with
      | [] => some (between (.complete value stack))
      | next :: rest => some (word next rest value stack)
    else none
  | numeral n stack => (n.next? c).map fun n => numeral n stack
  | text reversed role =>
    if c = '"' then some (between (role.close reversed))
    else if c = '\\' then some (escape reversed role)
    else if c.toNat < 0x20 then none
    else some (text ((Units.ofChar c).reverse ++ reversed) role)
  | escape reversed role =>
    if c = 'u' then some (unit reversed 0 3 role)
    else (escaped? c).map fun e => text (e.toNat :: reversed) role
  | unit reversed value remaining role =>
    (Hexadecimal.digitValue? c).map fun d =>
      match remaining with
      | 0 => text ((16 * value + d) :: reversed) role
      | n + 1 => unit reversed (16 * value + d) n role

/-- The value of a text that ends here. -/
def finish? : Reader → Option Json
  | between (.nothing v) => some v
  | _ => none

/-- What is wrong when a character, or the end of the text, cannot be read. -/
def fault (r : Reader) (c : Option Char) : Fault :=
  match r with
  | between next => next.fault
  | word _ _ _ _ => .unexpected
  | numeral n _ => n.fault
  | text _ _ => if c.isSome then .controlCharacter else .unfinishedString
  | escape _ _ => if c.isSome then .badEscape else .unfinishedString
  | unit _ _ _ _ => .badUnicodeEscape

/-- Reads the rest of a text after the characters `before`, the last one first. -/
def run (r : Reader) (before : List Char) : List Char → Except SyntaxError Json
  | [] =>
    let r := r.settle none
    match r.finish? with
    | some v => .ok v
    | none => .error ⟨r.fault none, before.reverse, []⟩
  | c :: rest =>
    let r := r.settle (some c)
    match r.read? c with
    | some r => r.run (c :: before) rest
    | none => .error ⟨r.fault (some c), before.reverse, c :: rest⟩

end Reader

/-- The value that a text spells, or why it spells none. -/
def parse (text : String) : Except SyntaxError Json :=
  Reader.run (.between (.value [])) [] text.toList

end Json
end FortranExpr
