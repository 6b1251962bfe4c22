/-
# Paths in a document

A path leads from the whole document, written `$`, to a value inside it, one member
or one item at a time: `$.checks[2].expr.left`.
-/

import FortranExpr.Json.Basic

namespace FortranExpr

/-- The way from a document to a value inside it. -/
inductive Path where
  | root
  | member (parent : Path) (name : String)
  | item (parent : Path) (index : Nat)
deriving DecidableEq, Repr

namespace Path

/-- A path as text. -/
def text : Path → String
  | root => "$"
  | member parent name => parent.text ++ "." ++ name
  | item parent index => parent.text ++ "[" ++ index.repr ++ "]"

/-- The value that a path leads to. -/
def resolve? (document : Json) : Path → Option Json
  | root => some document
  | member parent name => (parent.resolve? document).bind fun v => v.get? name
  | item parent index =>
    (parent.resolve? document).bind fun
      | .arr items => items[index]?
      | _ => none

end Path
end FortranExpr
