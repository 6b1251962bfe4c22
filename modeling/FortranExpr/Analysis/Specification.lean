/-
# Specification expressions

An expression that gives an array bound or the value of a type parameter is evaluated
on entry to a scope, so it may only depend on what is known there.  The first problem
in source order is reported.

| part | problem |
| --- | --- |
| a dummy argument | it is OPTIONAL, or INTENT(OUT), or no data object |
| another name | it is local: not associated, not of a module, not in a COMMON block, and of no scope around |
| a procedure by itself | it is passed as an argument |
| a coindexed reference | it is not evaluated at all |
| a call | the procedure is not pure; else the first problem of the arguments |
| a component | that of its base |

Named constants, reads of a descriptor, and calls of `present` and `kind` have none.
-/

import FortranExpr.Analysis.Constancy
import FortranExpr.Diagnostic.Basic

namespace FortranExpr

/-- Why an expression may not stand in a specification. -/
inductive SpecificationProblem where
  | optionalDummy (name : String)
  | intentOutDummy (name : String)
  | dummyProcedure
  | localEntity (name : String)
  | coindexed
  | impureFunction (name : String)
deriving DecidableEq, Repr

namespace SpecificationProblem

/-- The reason in words. -/
def text : SpecificationProblem → String
  | optionalDummy name => "reference to OPTIONAL dummy argument '" ++ name ++ "'"
  | intentOutDummy name => "reference to INTENT(OUT) dummy argument '" ++ name ++ "'"
  | dummyProcedure => "dummy procedure argument"
  | localEntity name => "reference to local entity '" ++ name ++ "'"
  | coindexed => "coindexed reference"
  | impureFunction name => "reference to impure function '" ++ name ++ "'"

/-- The constraint on specification expressions. -/
def constraint : String := "C1010"

/-- A reason as a diagnostic. -/
def diagnosticFor (reason : String) : Diagnostic where
  level := .error
  message := "Invalid specification expression: " ++ reason
  code := some constraint

/-- The problem as a diagnostic. -/
def diagnostic (p : SpecificationProblem) : Diagnostic := diagnosticFor p.text

end SpecificationProblem

namespace Details

/-- The symbol is an alias. -/
def isAlias {σ : Type} : Details σ → Bool
  | use _ | hostAssoc _ => true
  | _ => false

/-- A data object in a COMMON block. -/
def isInCommon {σ : Type} (d : Details σ) : Bool :=
  d.object?.any fun declared => declared.commonBlock.isSome

end Details

namespace Symbol

/-- The problem of a reference to a symbol in a specification of `scope`. -/
def specificationProblem (scope : Scope) (s : Symbol) : Option SpecificationProblem :=
  if s.isNamedConstant then none
  else if s.isDummy then
    if s.has .optional then some (.optionalDummy s.name)
    else if s.has .intentOut then some (.intentOutDummy s.name)
    else if s.details.object?.isSome then none
    else some .dummyProcedure
  else if s.details.isAlias || decide (s.owner.kind = .module) || s.details.isInCommon ||
      scope.hasAncestor s.owner then none
  else some (.localEntity s.name)

end Symbol

namespace Expr

/-- How the problem of an item is found where it is not the first one of its parts. -/
def specificationRule : Item Symbol → Rule (Option SpecificationProblem)
  | .expr (.designator _) => .answer (some .dummyProcedure)
  | .expr (.coindexed _ _ _ _ _) => .answer (some .coindexed)
  | .expr (.entity (.component _ _)) => .firstPart none
  | .expr (.descriptorInquiry _ _ _) => .answer none
  | .expr (.call (.user s) _ _) =>
    if s.isPureProcedure then .laterParts none else .answer (some (.impureFunction s.name))
  | .expr (.call (.intrinsic name) args rank) =>
    if name = "present" || (call (.intrinsic name) args rank).isConstant then .answer none
    else .laterParts none
  | _ => .usual

/-- The pass that looks for the first problem in a specification of `scope`. -/
def specification (scope : Scope) : Pass Symbol (Option SpecificationProblem) :=
  .any (Symbol.specificationProblem scope) specificationRule

/-- Why an expression may not stand in a specification of `scope`, if it may not. -/
def specificationProblem? (e : Expr Symbol) (scope : Scope) : Option SpecificationProblem :=
  (specification scope).run e

end Expr
end FortranExpr
