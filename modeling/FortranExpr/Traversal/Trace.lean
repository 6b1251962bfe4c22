/-
# The trace of a walk

A traced pass gives, beside its result, what happened on the way: every visit of an
item before its parts, and every occurrence of a symbol that was looked at.
-/

import FortranExpr.Traversal.Pass

namespace FortranExpr

variable {σ R : Type}

/-- One step of a walk. -/
inductive Event (σ : Type) where
  | visit (i : Item σ)
  | symbol (s : σ)

/-- Applies a function to the results that a rule holds. -/
def Rule.map {S : Type} (f : R → S) : Rule R → Rule S
  | usual => .usual
  | answer r => .answer (f r)
  | firstPart lead => .firstPart (f lead)
  | laterParts lead => .laterParts (f lead)

/-- The pass with the events of its walk beside its result. -/
def Pass.traced (p : Pass σ R) : Pass σ (R × List (Event σ)) where
  start := (p.start, [])
  combine a b := (p.combine a.1 b.1, a.2 ++ b.2)
  decided r := p.decided r.1
  symbol s := (p.symbol s, [.symbol s])
  rule i := (p.rule i).map fun r => (r, [])
  onVisit i r := (p.onVisit i r.1, .visit i :: r.2)

end FortranExpr
