/-
# The scope tree

A scope is known by the path of scopes that leads to it: the global scope has no
parent, and every other scope holds its parent, so a chain of parents always ends
at the global scope.  The serial number tells apart scopes made of the same parent
with the same kind and name.
-/

namespace FortranExpr

/-- What a scope belongs to. -/
inductive ScopeKind where
  | global
  | module
  | mainProgram
  | subprogram
  | blockConstruct
  | derivedType
  | impliedDos
deriving DecidableEq, Repr

/-- A node of the scope tree. -/
inductive Scope where
  | global
  | child (parent : Scope) (serial : Nat) (kind : ScopeKind) (name : String)
deriving DecidableEq, Repr, Inhabited

namespace Scope

/-- The global scope has a kind of its own. -/
def kind : Scope → ScopeKind
  | global => .global
  | child _ _ kind _ => kind

/-- The global scope has the empty name. -/
def name : Scope → String
  | global => ""
  | child _ _ _ name => name

/-- The scope around a scope. -/
def parent? : Scope → Option Scope
  | global => none
  | child parent _ _ _ => some parent

/-- Only the global scope has no parent. -/
def isGlobal (s : Scope) : Bool := s.parent?.isNone

/-- Whether `other` is one of the scopes around `s`, `s` itself not counted. -/
def hasAncestor (s other : Scope) : Bool :=
  match s with
  | global => false
  | child parent _ _ _ => decide (parent = other) || parent.hasAncestor other

end Scope
end FortranExpr
