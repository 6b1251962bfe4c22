/-
# Collectors of diagnostics

A collector keeps diagnostics in the order they were added, and a flag that tells
whether one of them is an error.  A store holds any number of collectors by name, each
empty until something is added to it.

Merging takes the diagnostics of the source one at a time, by position, from the
source as it stands at that moment.  From another collector that is a copy of its
list; a collector that holds something never comes to the end of itself, and that
merge has no result.
-/

import FortranExpr.Diagnostic.Basic
import FortranExpr.OrderedMap

namespace FortranExpr

/-- Diagnostics in the order they were added. -/
structure Collector where
  diagnostics : List Diagnostic
  hasErrors : Bool
deriving DecidableEq

namespace Collector

/-- The collector that holds nothing. -/
def empty : Collector := ⟨[], false⟩

/-- Adds a diagnostic at the end. -/
def add (c : Collector) (d : Diagnostic) : Collector :=
  ⟨c.diagnostics ++ [d], c.hasErrors || decide (d.level = .error)⟩

/-- Adds a diagnostic as it is said in a context. -/
def say (c : Collector) (context : Context) (d : Diagnostic) : Collector :=
  c.add (context.place d)

/-- The errors among the diagnostics. -/
def errors (c : Collector) : List Diagnostic :=
  c.diagnostics.filter fun d => decide (d.level = .error)

/-- The number of diagnostics of a level. -/
def countByLevel (c : Collector) (level : Level) : Nat :=
  (c.diagnostics.filter fun d => decide (d.level = level)).length

/-- The number of diagnostics. -/
def size (c : Collector) : Nat := c.diagnostics.length

end Collector

/-- Collectors by name. -/
structure CollectorStore where
  byName : OrderedMap String Collector

namespace CollectorStore

/-- No collector holds anything. -/
def empty : CollectorStore := ⟨∅⟩

/-- The collector of a name. -/
def get (store : CollectorStore) (name : String) : Collector :=
  (store.byName.get? name).getD .empty

/-- Replaces the collector of a name. -/
def set (store : CollectorStore) (name : String) (c : Collector) : CollectorStore :=
  ⟨store.byName.insert name c⟩

/-- Adds a diagnostic to the collector of a name. -/
def add (store : CollectorStore) (name : String) (d : Diagnostic) : CollectorStore :=
  store.set name ((store.get name).add d)

/-- Merges from position `i` on, in at most `turns` turns. -/
def mergeFrom? (name source : String) : (turns i : Nat) → CollectorStore → Option CollectorStore
  | turns, i, store =>
    match (store.get source).diagnostics[i]?, turns with
    | none, _ => some store
    | some _, 0 => none
    | some d, turns + 1 => mergeFrom? name source turns (i + 1) (store.add name d)

/-- Merges the collector `source` into the collector `name`, unless that never ends.  As
many turns as the source has diagnostics are enough for every other collector. -/
def merge? (store : CollectorStore) (name source : String) : Option CollectorStore :=
  mergeFrom? name source (store.get source).size 0 store

/-- What can be done to a collector. -/
inductive Action where
  | add (d : Diagnostic)
  | say (context : Context) (d : Diagnostic)
  | merge (source : String)
  | clear

/-- Does something to the collector of a name. -/
def perform? (store : CollectorStore) (name : String) : Action → Option CollectorStore
  | .add d => some (store.add name d)
  | .say context d => some (store.set name ((store.get name).say context d))
  | .merge source => store.merge? name source
  | .clear => some (store.set name .empty)

end CollectorStore
end FortranExpr
