/-
# Scopes and declarations

The declarations of a program: every scope that was made, and for every scope the
table of the names declared in it.  A later declaration of a name takes the place of
an earlier one in the table of its scope and leaves every other table alone.
-/

import FortranExpr.Symbol

namespace FortranExpr

/-- The names of one scope, in order of their first declaration. -/
abbrev SymbolTable := OrderedMap String Symbol

/-- The scopes made so far, beside the global one, the number of symbols declared so
far, and the table of every scope in which something is declared. -/
structure Declarations where
  made : List Scope
  declared : Nat
  tables : OrderedMap Scope SymbolTable

namespace Declarations

/-- The global scope alone. -/
def empty : Declarations := ⟨[], 0, ∅⟩

/-- The names declared in a scope. -/
def table (d : Declarations) (scope : Scope) : SymbolTable := (d.tables.get? scope).getD ∅

/-- Makes a scope inside another one. -/
def makeChild (d : Declarations) (parent : Scope) (kind : ScopeKind) (name : String) :
    Scope × Declarations :=
  let scope := .child parent d.made.length kind name
  (scope, { d with made := d.made ++ [scope] })

/-- Declares a symbol in its scope. -/
def declare (d : Declarations) (scope : Scope) (name : String) (details : Details Symbol)
    (attrs : List Attr) : Symbol × Declarations :=
  let symbol : Symbol := ⟨d.declared, name, scope, details, attrs.eraseDups⟩
  (symbol,
    { d with
      declared := d.declared + 1
      tables := d.tables.insert scope ((d.table scope).insert name symbol) })

end Declarations
end FortranExpr
