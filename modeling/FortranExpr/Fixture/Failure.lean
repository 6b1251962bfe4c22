/-
# Why a document is no fixture

A document is rejected for a problem at a path.  Each problem is of one of five kinds and
has a message.

| problem | kind | message |
| --- | --- | --- |
| `notJson error` | `invalidJson` | `Unexpected end of JSON input`, … |
| `missing field` | `missingField` | `missing field 'name'` |
| `expected what` | `invalidValue` | `expected an array`, … |
| `unknownWord topic text` | `invalidValue` | `unknown op 'plus'`, … |
| `unknownReference entity id` | `unknownReference` | `unknown symbol 'x'` |
| `duplicate entity id` | `duplicateId` | `duplicate scope id 's'` |

A message that quotes a value needs its text, and a value without one
(`Json.text?`) leaves the rejection without a message: the reader then fails as
`unprintable`.
-/

import FortranExpr.Fixture.Path
import FortranExpr.Json.SyntaxError
import FortranExpr.Json.Text

namespace FortranExpr

/-- What stands for a reference: ids of scopes and of symbols. -/
inductive Entity where
  | scope
  | symbol
deriving DecidableEq, Repr

/-- The name of an entity. -/
def Entity.text : Entity → String
  | scope => "scope"
  | symbol => "symbol"

/-- What a value has to be at its place. -/
inductive Expectation where
  | object
  | array
  | string
  | boolean
  | count
  | literalValue
  | hexDigits
  | typeParamKind
  | complexPart
  | tripletBounds
  | dataRef
  | filledShape (size : Binary64) (shape : List Binary64)
deriving DecidableEq

namespace Expectation

/-- The expectation in words. -/
def text : Expectation → String
  | object => "an object"
  | array => "an array"
  | string => "a string"
  | boolean => "a boolean"
  | count => "a non-negative integer"
  | literalValue => "a number, string or boolean"
  | hexDigits => "hexadecimal digits"
  | typeParamKind => "'kind' or 'len'"
  | complexPart => "'re' or 'im'"
  | tripletBounds => "up to three bounds"
  | dataRef => "a symbol or component reference"
  | filledShape size shape =>
    size.text ++ " values for shape [" ++ ", ".intercalate (shape.map Binary64.text) ++ "]"

end Expectation

/-- What is wrong with a document. -/
inductive Problem where
  | notJson (error : Json.SyntaxError)
  | missing (field : String)
  | expected (what : Expectation)
  | unknownWord (topic text : String)
  | unknownReference (entity : Entity) (id : String)
  | duplicate (entity : Entity) (id : String)
deriving DecidableEq

/-- What errors are told apart by. -/
inductive ErrorKind where
  | invalidJson
  | missingField
  | invalidValue
  | unknownReference
  | duplicateId
deriving DecidableEq, Repr

/-- The kind of a problem. -/
def Problem.kind : Problem → ErrorKind
  | notJson _ => .invalidJson
  | missing _ => .missingField
  | expected _ | unknownWord _ _ => .invalidValue
  | unknownReference _ _ => .unknownReference
  | duplicate _ _ => .duplicateId

/-- The problem in words. -/
def Problem.message : Problem → String
  | notJson error => error.message
  | missing field => "missing field '" ++ field ++ "'"
  | expected what => "expected " ++ what.text
  | unknownWord topic text => "unknown " ++ topic ++ " '" ++ text ++ "'"
  | unknownReference entity id => "unknown " ++ entity.text ++ " '" ++ id ++ "'"
  | duplicate entity id => "duplicate " ++ entity.text ++ " id '" ++ id ++ "'"

/-- A problem and the path of the value it lies in. -/
structure Rejection where
  problem : Problem
  path : Path
deriving DecidableEq

namespace Rejection

/-- The kind of the problem. -/
def kind (r : Rejection) : ErrorKind := r.problem.kind

/-- The problem in words. -/
def message (r : Rejection) : String := r.problem.message

end Rejection

/-- How reading a document can fail. -/
inductive Failure where
  | rejected (r : Rejection)
  | unprintable
deriving DecidableEq

/-- The result of reading. -/
abbrev Read (α : Type) := Except Failure α

namespace Read

variable {α β : Type}

/-- Rejects the value at a path. -/
def reject (problem : Problem) (path : Path) : Read α := .error (.rejected ⟨problem, path⟩)

/-- Rejects a value because it has to be something else. -/
def expected (what : Expectation) (path : Path) : Read α := reject (.expected what) path

/-- Rejects a value that stands where a word of some topic has to, and quotes it. -/
def unknownWord (topic : String) (value : Option Json) (path : Path) : Read α :=
  match value with
  | none => reject (.unknownWord topic "undefined") path
  | some v =>
    match v.text? with
    | some text => reject (.unknownWord topic text) path
    | none => .error .unprintable

/-- Reads items one after another, `index` of them being read already. -/
def itemsFrom (path : Path) (read : α → Path → Read β) (index : Nat) : List α → Read (List β)
  | [] => .ok []
  | item :: rest => do
    let first ← read item (path.item index)
    let others ← itemsFrom path read (index + 1) rest
    return first :: others

/-- Reads the items of a list, each at its own path, up to the first failure. -/
def items (path : Path) (read : α → Path → Read β) (list : List α) : Read (List β) :=
  itemsFrom path read 0 list

end Read
end FortranExpr
