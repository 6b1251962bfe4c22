/-
# Checks and their reports

A check asks four questions about an expression, each answered by a predicate of its
own; a selection runs all of them or one.  The report of a check holds an answer for
each predicate that ran, and is written as a block of lines:

    p0: a(1:2)
      constant: no
      initial data target: yes
      specification expression: yes
      simply contiguous: yes

followed by the diagnostics.
-/

import FortranExpr.Analysis.Contiguity
import FortranExpr.Analysis.InitialTarget
import FortranExpr.Analysis.Specification
import FortranExpr.Diagnostic.Render
import FortranExpr.Expr.Printer

namespace FortranExpr

/-- A question about an expression. -/
inductive Predicate where
  | constant
  | initialTarget
  | specification
  | contiguous
deriving DecidableEq, Repr

namespace Predicate

/-- The name by which a predicate is selected. -/
def name : Predicate → String
  | constant => "constant"
  | initialTarget => "initial-target"
  | specification => "specification"
  | contiguous => "contiguous"

/-- The predicates in the order they run. -/
def all : List Predicate := [constant, initialTarget, specification, contiguous]

/-- The predicate of a name. -/
def ofName? (name : String) : Option Predicate := all.find? fun p => p.name == name

end Predicate

/-- All predicates, or the one of a name; a name that no predicate has selects none. -/
structure Selection where
  only : Option String
deriving DecidableEq

namespace Selection

/-- Every predicate. -/
def everything : Selection := ⟨none⟩

/-- A predicate is selected. -/
def selects (s : Selection) (p : Predicate) : Bool :=
  match s.only with
  | none => true
  | some name => name == p.name

end Selection

/-- An expression to check, the scope it stands in and its place. -/
structure Check where
  name : String
  scope : Scope
  expr : Expr Symbol
  at? : Option Span

/-- The verdict on an initial data target, with its diagnostics. -/
structure TargetAnswer where
  accepted : Bool
  diagnostics : List Diagnostic
deriving DecidableEq

/-- The answers of the predicates that ran.  Contiguity is itself unknown where no rule
decides it. -/
structure Report where
  name : String
  text : String
  constant : Option Bool
  initialTarget : Option TargetAnswer
  specification : Option (List Diagnostic)
  contiguous : Option (Option Bool)
deriving DecidableEq

namespace Check

/-- Diagnostics are attributed to the place of the check. -/
def context (c : Check) : Context := ⟨c.at?⟩

/-- The verdict on the expression as an initial data target. -/
def targetAnswer (c : Check) : TargetAnswer :=
  let v := c.expr.targetVerdict
  ⟨v.accepted, v.findings.map fun f => c.context.place f.diagnostic⟩

/-- The diagnostics of the expression as a specification expression of its scope. -/
def specificationDiagnostics (c : Check) : List Diagnostic :=
  (c.expr.specificationProblem? c.scope).toList.map fun p => c.context.place p.diagnostic

/-- Runs the selected predicates. -/
def run (c : Check) (table : IntrinsicTable) (selection : Selection) : Report :=
  let answer {α : Type} (p : Predicate) (a : α) : Option α :=
    if selection.selects p then some a else none
  { name := c.name
    text := c.expr.text
    constant := answer .constant c.expr.isConstant
    initialTarget := answer .initialTarget c.targetAnswer
    specification := answer .specification c.specificationDiagnostics
    contiguous := answer .contiguous (c.expr.contiguous? table) }

end Check

namespace Report

/-- The diagnostics of a report, those on the initial data target first. -/
def diagnostics (r : Report) : List Diagnostic :=
  (r.initialTarget.map TargetAnswer.diagnostics).getD [] ++ r.specification.getD []

/-- The word for an answer. -/
def answerText : Option Bool → String
  | none => "unknown"
  | some true => "yes"
  | some false => "no"

/-- The line of an answer, if its predicate ran. -/
def answerLine (title : String) (answer : Option (Option Bool)) : List String :=
  (answer.map fun a => "  " ++ title ++ ": " ++ answerText a).toList

/-- A report as text. -/
def format (r : Report) (color : Bool := false) : String :=
  "\n".intercalate <|
    (r.name ++ ": " ++ r.text) ::
      (answerLine "constant" (r.constant.map some) ++
        answerLine "initial data target" (r.initialTarget.map fun t => some t.accepted) ++
        answerLine "specification expression" (r.specification.map fun ds => some ds.isEmpty) ++
        answerLine "simply contiguous" r.contiguous ++
        r.diagnostics.map fun d => d.render color)

/-- Reports as text, with blank lines between them. -/
def formatAll (reports : List Report) (color : Bool := false) : String :=
  "\n\n".intercalate (reports.map fun r => r.format color)

/-- Some report holds an error. -/
def anyErrors (reports : List Report) : Bool :=
  reports.any fun r => r.diagnostics.any fun d => decide (d.level = .error)

end Report
end FortranExpr
