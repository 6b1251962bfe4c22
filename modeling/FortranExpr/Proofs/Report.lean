/-
# What a report holds

A report holds the answer of each predicate that was selected, and each answer is the one that
the predicate gives by itself: no predicate changes what another one says.

| selected | in the report | its diagnostics |
| --- | --- | --- |
| constancy | the verdict | none |
| initial data targets | the verdict and the findings | one for each finding |
| specifications | the findings | one for the problem, if there is one |
| contiguity | the verdict, if a rule gives one | none |

Every diagnostic is an error, at the place of the check.  So errors are reported exactly when
some check is at fault by a predicate that was selected (`Fixture.anyErrors_run_iff`).
-/

import FortranExpr.Fixture.Load
import Mathlib.Logic.Basic

namespace FortranExpr

/-! ### Selections -/

theorem Predicate.name_injective {p q : Predicate} (h : p.name = q.name) : p = q := by
  revert h
  cases p <;> cases q <;> decide

namespace Selection

/-- One predicate alone. -/
def just (p : Predicate) : Selection := ⟨some p.name⟩

@[simp] theorem selects_everything (p : Predicate) : everything.selects p = true := rfl

@[simp] theorem selects_just (p q : Predicate) : (just p).selects q = decide (p = q) := by
  show (p.name == q.name) = decide (p = q)
  rw [Bool.eq_iff_iff, beq_iff_eq, decide_eq_true_iff]
  exact ⟨Predicate.name_injective, congrArg Predicate.name⟩

end Selection

/-! ### Answers -/

/-- What a predicate answers. -/
def Predicate.Answer : Predicate → Type
  | constant => Bool
  | initialTarget => TargetAnswer
  | specification => List Diagnostic
  | contiguous => Option Bool

/-- The answer of a predicate to a check. -/
def Check.answer (c : Check) (table : IntrinsicTable) : (p : Predicate) → p.Answer
  | .constant => c.expr.isConstant
  | .initialTarget => c.targetAnswer
  | .specification => c.specificationDiagnostics
  | .contiguous => c.expr.contiguous? table

/-- The answer of a predicate in a report. -/
def Report.answer? (r : Report) : (p : Predicate) → Option p.Answer
  | .constant => r.constant
  | .initialTarget => r.initialTarget
  | .specification => r.specification
  | .contiguous => r.contiguous

/-- **A report holds** the answers of the predicates selected, and no others. -/
theorem Check.answer?_run (c : Check) (table : IntrinsicTable) (selection : Selection)
    (p : Predicate) : (c.run table selection).answer? p =
      if selection.selects p then some (c.answer table p) else none := by
  cases p <;> rfl

/-- A predicate by itself answers every check as it does among the others. -/
theorem Fixture.answers_run (f : Fixture) (selection : Selection) (p : Predicate)
    (h : selection.selects p = true) :
    (f.run selection).map (fun r => r.answer? p) =
      f.checks.map fun c => some (c.answer f.intrinsics p) := by
  rw [run, List.map_map]
  refine List.map_congr_left fun c _ => ?_
  rw [Function.comp_apply, c.answer?_run, if_pos h]

/-! ### Lines -/

namespace Report

/-- The lines of a report that answer a question each. -/
def answerLines (r : Report) : List String :=
  answerLine "constant" (r.constant.map some) ++
    answerLine "initial data target" (r.initialTarget.map fun t => some t.accepted) ++
    answerLine "specification expression" (r.specification.map fun ds => some ds.isEmpty) ++
    answerLine "simply contiguous" r.contiguous

/-- A report is its title, its answers and its diagnostics. -/
theorem format_eq (r : Report) (color : Bool) : r.format color =
    "\n".intercalate ((r.name ++ ": " ++ r.text) ::
      (r.answerLines ++ r.diagnostics.map fun d => d.render color)) := rfl

end Report

/-! ### Diagnostics -/

/-- The diagnostic is an error at a place. -/
def Diagnostic.IsErrorAt (place : Option Span) (d : Diagnostic) : Prop :=
  d.level = .error ∧ d.span = place

namespace Check

variable (c : Check) (table : IntrinsicTable) (selection : Selection)

/-- An error without a place of its own is said at the place of the check. -/
theorem isErrorAt_place {d : Diagnostic} (h : d.IsErrorAt none) :
    (c.context.place d).IsErrorAt c.at? := by
  refine ⟨h.1, ?_⟩
  rw [Context.place, h.2, Option.none_or, context]

theorem isErrorAt_targetAnswer : ∀ d ∈ c.targetAnswer.diagnostics, d.IsErrorAt c.at? := by
  intro d hd
  obtain ⟨finding, -, rfl⟩ := List.mem_map.1 hd
  exact c.isErrorAt_place ⟨rfl, rfl⟩

theorem isErrorAt_specificationDiagnostics :
    ∀ d ∈ c.specificationDiagnostics, d.IsErrorAt c.at? := by
  intro d hd
  obtain ⟨problem, -, rfl⟩ := List.mem_map.1 hd
  exact c.isErrorAt_place ⟨rfl, rfl⟩

/-- The diagnostics of a report are those of its two predicates that have some. -/
theorem diagnostics_run : (c.run table selection).diagnostics =
    (if selection.selects .initialTarget then c.targetAnswer.diagnostics else []) ++
      if selection.selects .specification then c.specificationDiagnostics else [] := by
  have htarget := c.answer?_run table selection .initialTarget
  have hspecification := c.answer?_run table selection .specification
  simp only [Report.answer?, answer] at htarget hspecification
  rw [Report.diagnostics, htarget, hspecification]
  cases selection.selects .initialTarget <;> cases selection.selects .specification <;> rfl

/-- **Every diagnostic of a report** is an error at the place of the check. -/
theorem isErrorAt_run : ∀ d ∈ (c.run table selection).diagnostics, d.IsErrorAt c.at? := by
  intro d hd
  rw [diagnostics_run, List.mem_append] at hd
  rcases hd with hd | hd
  · split at hd
    · exact c.isErrorAt_targetAnswer d hd
    · cases hd
  · split at hd
    · exact c.isErrorAt_specificationDiagnostics d hd
    · cases hd

/-- Something is wrong with the expression, by a predicate that was selected: there are
findings on it as an initial data target, whatever the verdict, or it has a problem as a
specification expression of its scope. -/
def IsFaulty (c : Check) (selection : Selection) : Prop :=
  selection.selects .initialTarget = true ∧ c.expr.targetVerdict.findings ≠ [] ∨
    selection.selects .specification = true ∧ (c.expr.specificationProblem? c.scope).isSome = true

instance (c : Check) (selection : Selection) : Decidable (c.IsFaulty selection) :=
  inferInstanceAs (Decidable (_ ∨ _))

theorem diagnostics_run_ne_nil_iff :
    (c.run table selection).diagnostics ≠ [] ↔ c.IsFaulty selection := by
  have htarget : c.targetAnswer.diagnostics ≠ [] ↔ c.expr.targetVerdict.findings ≠ [] :=
    List.map_eq_nil_iff.not
  have hspecification : c.specificationDiagnostics ≠ [] ↔
      (c.expr.specificationProblem? c.scope).isSome = true := by
    rw [specificationDiagnostics]
    cases c.expr.specificationProblem? c.scope <;> simp
  rw [diagnostics_run, Ne, List.append_eq_nil_iff, not_and_or, IsFaulty]
  cases selection.selects .initialTarget <;> cases selection.selects .specification <;>
    simp [htarget, hspecification]

/-- An expression is at fault by all predicates if it is by one of the two that find faults. -/
theorem isFaulty_everything_iff : c.IsFaulty .everything ↔
    c.IsFaulty (.just .initialTarget) ∨ c.IsFaulty (.just .specification) := by
  simp [IsFaulty]

end Check

namespace Fixture

variable (f : Fixture) (selection : Selection)

/-- **Errors are reported** exactly when some check is at fault. -/
theorem anyErrors_run_iff :
    Report.anyErrors (f.run selection) = true ↔ ∃ c ∈ f.checks, c.IsFaulty selection := by
  rw [Report.anyErrors, run, List.any_map, List.any_eq_true]
  refine exists_congr fun c => and_congr_right fun _ => ?_
  rw [Function.comp_apply, List.any_eq_true, ← c.diagnostics_run_ne_nil_iff f.intrinsics]
  constructor
  · rintro ⟨d, hd, -⟩
    exact List.ne_nil_of_mem hd
  · intro hne
    obtain ⟨d, hd⟩ := List.exists_mem_of_ne_nil _ hne
    exact ⟨d, hd, decide_eq_true (c.isErrorAt_run _ _ d hd).1⟩

/-- A full run reports errors if one of the two predicates that find faults does by itself. -/
theorem anyErrors_run_everything : Report.anyErrors (f.run .everything) =
    (Report.anyErrors (f.run (.just .initialTarget)) ||
      Report.anyErrors (f.run (.just .specification))) := by
  rw [Bool.eq_iff_iff, Bool.or_eq_true, anyErrors_run_iff, anyErrors_run_iff, anyErrors_run_iff]
  simp only [Check.isFaulty_everything_iff, and_or_left, exists_or]

end Fixture
end FortranExpr
