/-
# Initial data targets

The target of a pointer initialization is `null()`, or a designator of an object with
static storage, reached through constant subscripts only.  The shape of the
expression decides the verdict; the attributes of the object do not change it, and
are reported as faults.

| node | verdict |
| --- | --- |
| a name | true, with the faults of the object |
| a component | that of its base; an ALLOCATABLE component is a fault |
| an array reference | base and subscripts: scalar constants, or triplets of constants |
| a substring | constant bounds, then that of its parent |
| a part of a complex value, parentheses | that of the operand |
| `null()` | true |
| a procedure | true, with the faults of its symbol |
| every other node | false |
-/

import FortranExpr.Analysis.Constancy
import FortranExpr.Diagnostic.Basic
import FortranExpr.Expr.Rank

namespace FortranExpr

/-- What can be wrong with the object that a pointer is initialized with. -/
inductive TargetFault where
  | allocatable
  | coarray
  | lacksTarget
  | lacksSave
deriving DecidableEq, Repr

namespace TargetFault

/-- The constraint on the target of a pointer initialization. -/
def constraint : String := "C765"

/-- What the fault is, said of an object. -/
def message (fault : TargetFault) (name : String) : String :=
  "An initial data target may not be a reference to " ++
    match fault with
    | allocatable => "an ALLOCATABLE '" ++ name ++ "'"
    | coarray => "a coarray '" ++ name ++ "'"
    | lacksTarget => "an object '" ++ name ++ "' that lacks the TARGET attribute"
    | lacksSave => "an object '" ++ name ++ "' that lacks the SAVE attribute"

/-- The attribute that would mend the fault. -/
def missingAttribute? : TargetFault → Option String
  | allocatable | coarray => none
  | lacksTarget => some "TARGET"
  | lacksSave => some "SAVE"

/-- The fault as a diagnostic. -/
def diagnostic (fault : TargetFault) (name : String) : Diagnostic where
  level := .error
  message := fault.message name
  code := some constraint
  hint := fault.missingAttribute?.map fun a =>
    "add " ++ a ++ " to the declaration of '" ++ name ++ "'"

end TargetFault

/-- A fault of the object of a name. -/
structure TargetFinding where
  fault : TargetFault
  name : String
deriving DecidableEq, Repr

namespace TargetFinding

/-- The finding as a diagnostic. -/
def diagnostic (f : TargetFinding) : Diagnostic := f.fault.diagnostic f.name

end TargetFinding

namespace Symbol

/-- The faults of an entity as the object of a pointer initialization. -/
def targetFindings (s : Symbol) : List TargetFinding :=
  let u := s.ultimate
  let finding (wrong : Bool) (fault : TargetFault) : List TargetFinding :=
    if wrong then [⟨fault, u.name⟩] else []
  finding u.isAllocatable .allocatable ++ finding u.corank.isPositive .coarray ++
    finding (!u.has .target) .lacksTarget ++ finding (!u.isSaved) .lacksSave

/-- A component is at fault only when it is ALLOCATABLE: TARGET and SAVE belong to the
object it is part of. -/
def componentFindings (s : Symbol) : List TargetFinding :=
  if s.isAllocatable then [⟨.allocatable, s.name⟩] else []

end Symbol

/-- A slot that is empty or holds a constant expression. -/
def Slot.isConstant : Slot Symbol → Bool
  | .empty => true
  | .filled e => e.isConstant

/-- A subscript that keeps the address known at compile time: a section of constant
bounds, or a constant scalar. -/
def Subscript.isStatic : Subscript Symbol → Bool
  | .triplet t => t.lower.isConstant && t.upper.isConstant && t.stride.isConstant
  | .element e => decide (e.rank = 0) && e.isConstant

/-- The verdict on an initial data target, and the faults found before it stood. -/
structure TargetVerdict where
  accepted : Bool
  findings : List TargetFinding
deriving DecidableEq, Repr

namespace TargetVerdict

/-- A verdict without findings. -/
def plain (accepted : Bool) : TargetVerdict := ⟨accepted, []⟩

/-- Both parts have to be accepted. -/
def and (a b : TargetVerdict) : TargetVerdict :=
  ⟨a.accepted && b.accepted, a.findings ++ b.findings⟩

end TargetVerdict

namespace Expr

/-- How an item is judged where it is not by all of its parts. -/
def targetRule : Item Symbol → Rule TargetVerdict
  | .expr (.entity (.component _ c)) => .firstPart ⟨true, c.componentFindings⟩
  | .expr (.substring _ lower upper) =>
    if lower.isConstant && upper.isConstant then .firstPart (.plain true)
    else .answer (.plain false)
  | .subscript s => .answer (.plain s.isStatic)
  | .expr (.entity (.symbol _)) | .expr .nullPointer | .expr (.designator _)
  | .expr (.arrayRef _ _) | .expr (.complexPart _ _) | .expr (.parens _) => .usual
  | .expr _ => .answer (.plain false)
  | _ => .usual

/-- The pass that judges an initial data target. -/
def initialTarget : Pass Symbol TargetVerdict where
  start := .plain true
  combine := .and
  decided v := !v.accepted
  symbol s := ⟨true, s.targetFindings⟩
  rule := targetRule

/-- The verdict on an expression as the target of a pointer initialization. -/
def targetVerdict (e : Expr Symbol) : TargetVerdict := initialTarget.run e

end Expr
end FortranExpr
