/-
# Diagnostics

A diagnostic is a message of one of four levels, with a place in a file, a code and
a hint where they are known.  A context attributes a diagnostic that has no place of
its own to the place that is being checked.
-/

import FortranExpr.Number.Binary64

namespace FortranExpr

/-- The severity of a diagnostic. -/
inductive Level where
  | error
  | warning
  | note
  | help
deriving DecidableEq, Repr

/-- A position in a file. -/
structure Location where
  file : Option String
  line : Binary64
  column : Binary64
deriving DecidableEq

/-- A range of positions. -/
structure Span where
  start : Location
  stop : Location
deriving DecidableEq

/-- A message about a checked text. -/
structure Diagnostic where
  level : Level
  message : String
  span : Option Span := none
  code : Option String := none
  hint : Option String := none
deriving DecidableEq

/-- The place that is being checked, if it is known. -/
structure Context where
  location : Option Span

namespace Context

/-- The same check at another place. -/
def withLocation (_ : Context) (location : Option Span) : Context := ⟨location⟩

/-- A diagnostic as it is said in a context: a place of its own goes before that of the
context. -/
def place (context : Context) (d : Diagnostic) : Diagnostic :=
  { d with span := d.span.or context.location }

end Context
end FortranExpr
