/-
# Reading the fields of a record

| field | absent | otherwise |
| --- | --- | --- |
| `string` | missing | a string |
| `count d` | `d` | a whole number that is not negative |
| `flag` | false | a boolean |
| `array` | no items | an array |
| `word` | missing | a word of a vocabulary |
| `idOr d` | `d`, as for `null` | a string |
-/

import FortranExpr.Fixture.Vocabulary

namespace FortranExpr
namespace Field

/-- Refuses every value but an object. -/
def object (value : Option Json) (path : Path) : Read Json :=
  match value with
  | some v => if v.isObject then .ok v else .expected .object path
  | none => .expected .object path

/-- A string that has to be present. -/
def string (record : Json) (key : String) (path : Path) : Read String :=
  match record.get? key with
  | none => .reject (.missing key) path
  | some (.str s) => .ok s
  | some _ => .expected .string (path.member key)

/-- A string, where absence and `null` stand for a default. -/
def idOr (fallback : String) (record : Json) (key : String) (path : Path) : Read String :=
  match record.get? key with
  | none | some .null => .ok fallback
  | some (.str s) => .ok s
  | some _ => .expected .string (path.member key)

/-- A whole number that is not negative. -/
def count (fallback : Binary64) (record : Json) (key : String) (path : Path) : Read Binary64 :=
  match record.get? key with
  | none => .ok fallback
  | some (.num x) => if x.isCount then .ok x else .expected .count (path.member key)
  | some _ => .expected .count (path.member key)

/-- A boolean. -/
def flag (record : Json) (key : String) (path : Path) : Read Bool :=
  match record.get? key with
  | none => .ok false
  | some (.bool b) => .ok b
  | some _ => .expected .boolean (path.member key)

/-- The items of an array. -/
def array (record : Json) (key : String) (path : Path) : Read (List Json) :=
  match record.get? key with
  | none => .ok []
  | some (.arr items) => .ok items
  | some _ => .expected .array (path.member key)

/-- The items of an array, as values inside the record. -/
def arrayBelow (record : Json) (key : String) (path : Path) : Read (List record.Below) :=
  match record.child? key with
  | none => .ok []
  | some v =>
    match v.items? with
    | some items => .ok items
    | none => .expected .array (path.member key)

/-- A word of a vocabulary, read from a string that has to be present. -/
def word {α : Type} [Vocabulary α] (record : Json) (key : String) (path : Path) : Read α := do
  let text ← string record key path
  match Vocabulary.ofWord? text with
  | some a => return a
  | none => .reject (.unknownWord (Vocabulary.topic α) text) (path.member key)

/-- A word of a vocabulary, read from a value of any form. -/
def wordOf {α : Type} [Vocabulary α] (value : Option Json) (path : Path) : Read α :=
  match value with
  | some (.str text) =>
    match Vocabulary.ofWord? text with
    | some a => .ok a
    | none => .reject (.unknownWord (Vocabulary.topic α) text) path
  | v => .unknownWord (Vocabulary.topic α) v path

end Field
end FortranExpr
