/-
# The text of a JSON value inside a message

| value | text |
| --- | --- |
| `null`, `true`, `12.50`, `"a"` | `null`, `true`, `12.5`, `a` |
| an array | its items with commas between them, `null` written as nothing |
| an object | `[object Object]` |

An object with a member `toString` has no text: that member stands in for the
conversion to text, and no JSON value can perform it.
-/

import FortranExpr.Json.Basic

namespace FortranExpr
namespace Json

mutual

/-- The text of a value, if it has one. -/
def text? : Json → Option String
  | null => some "null"
  | bool b => some (if b then "true" else "false")
  | num n => some n.text
  | str s => some s
  | arr items => (itemTexts? items).map (",".intercalate ·)
  | obj written =>
    match lastUnder? "toString" written with
    | some _ => none
    | none => some "[object Object]"

/-- The texts of the items of an array. -/
def itemTexts? : List Json → Option (List String)
  | [] => some []
  | null :: rest => (itemTexts? rest).map ("" :: ·)
  | v :: rest => (text? v).bind fun t => (itemTexts? rest).map (t :: ·)

end

/-- The message of a value that reports a failure: that of its member `message`, or else
its own text. -/
def failureText? (v : Json) : Option String := ((v.get? "message").getD v).text?

end Json
end FortranExpr
