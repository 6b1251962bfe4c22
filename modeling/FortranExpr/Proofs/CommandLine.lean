/-
# What the exit code tells

A run that reads a file ends in one of these ways.

| the file | exit code |
| --- | ---: |
| holds no fixture | 1 |
| holds a fixture, and a check is at fault by a predicate selected | 1 |
| holds a fixture, and no check is at fault by the predicates selected | 0 |

No other way is left once there is a message for what is no fixture.  A verdict that is merely
negative is no fault: an expression that is not constant, or not simply contiguous, is one among
others.
-/

import FortranExpr.CommandLine
import FortranExpr.Proofs.Fixture.Reading
import FortranExpr.Proofs.Report

namespace FortranExpr
namespace CommandLine

/-- The predicates that options select. -/
def Options.selection (options : Options) : Selection := ⟨options.only.map Predicate.name⟩

/-- The text of a file is a fixture, and by the predicates selected no check of it is at
fault. -/
def IsSound (options : Options) (file text : String) : Prop :=
  ∃ f, Fixture.ofText (some file) text = .ok f ∧ ¬∃ c ∈ f.checks, c.IsFaulty options.selection

variable {terminal : Bool} {arguments : List String} {options : Options} {file text : String}

/-- Arguments that name a file lead to its text. -/
theorem startCheck_eq_needs (hparse : parse terminal arguments = .check options)
    (hfile : options.inputFile = some file) (hne : file ≠ "") :
    startCheck terminal arguments = .needs file options := by
  have harguments : arguments.isEmpty = false := by
    cases arguments with
    | cons => rfl
    | nil =>
      obtain rfl := Request.check.inj hparse
      cases hfile
  have hnonempty : nonempty? options.inputFile = some file := by
    rw [hfile, nonempty?, Option.filter_some, if_pos]
    rw [Bool.not_eq_true', ← Bool.not_eq_true, String.isEmpty_iff]
    exact hne
  simp only [startCheck, harguments, hparse, hnonempty, Bool.false_eq_true, if_false]

/-- A fixture is sound if its run reports no error. -/
theorem isSound_iff {f : Fixture} (hread : Fixture.ofText (some file) text = .ok f) :
    IsSound options file text ↔ Report.anyErrors (f.run options.selection) = false := by
  rw [← Bool.not_eq_true, f.anyErrors_run_iff]
  constructor
  · rintro ⟨g, hg, hnone⟩
    obtain rfl := Except.ok.inj (hread.symm.trans hg)
    exact hnone
  · exact fun hnone => ⟨f, hread, hnone⟩

theorem not_isSound_of_error {failure : Failure}
    (hread : Fixture.ofText (some file) text = .error failure) : ¬IsSound options file text := by
  rintro ⟨g, hg, -⟩
  exact nomatch hread.symm.trans hg

/-- **A text that can be read, or rejected with a message,** gives an outcome, and its exit code
tells whether the text is sound. -/
theorem exitCode_checkText (h : Fixture.ofText (some file) text ≠ .error .unprintable) :
    ∃ outcome, checkText options file text = some outcome ∧
      (outcome.exitCode = 0 ↔ IsSound options file text) ∧
      (outcome.exitCode = 1 ↔ ¬IsSound options file text) := by
  rw [checkText]
  cases hread : Fixture.ofText (some file) text with
  | error failure =>
    cases failure with
    | unprintable => exact absurd hread h
    | rejected r =>
      have hnot : ¬IsSound options file text := not_isSound_of_error hread
      exact ⟨_, rfl, iff_of_false nofun hnot, iff_of_true rfl hnot⟩
  | ok f =>
    rw [isSound_iff hread]
    refine ⟨_, rfl, ?_⟩
    show ((if Report.anyErrors (f.run options.selection) = true then 1 else 0) = 0 ↔ _) ∧
      ((if Report.anyErrors (f.run options.selection) = true then 1 else 0) = 1 ↔ _)
    cases Report.anyErrors (f.run options.selection) <;> decide

/-- **Exit code, diagnostics and predicates agree.**  In every report of every fixture the
diagnostics are errors at the place of the check; there is one exactly when some check is at
fault by a predicate selected, so a full run has errors exactly when one of the two predicates
that find faults has them by itself; and a predicate answers by itself as it does among the
others.  A run of the command line that reads a text ends with exit code 0 if the text is a
fixture and no check is at fault, and with 1 otherwise. -/
theorem exitCode_agrees :
    (∀ (f : Fixture) (selection : Selection),
      List.Forall₂ (fun (c : Check) (r : Report) => ∀ d ∈ r.diagnostics, d.IsErrorAt c.at?)
        f.checks (f.run selection) ∧
      (Report.anyErrors (f.run selection) = true ↔ ∃ c ∈ f.checks, c.IsFaulty selection)) ∧
    (∀ f : Fixture, Report.anyErrors (f.run .everything) =
      (Report.anyErrors (f.run (.just .initialTarget)) ||
        Report.anyErrors (f.run (.just .specification)))) ∧
    (∀ (f : Fixture) (p : Predicate),
      (f.run (.just p)).map (fun r => r.answer? p) =
        (f.checks.map fun c => some (c.answer f.intrinsics p)) ∧
      (f.run .everything).map (fun r => r.answer? p) =
        f.checks.map fun c => some (c.answer f.intrinsics p)) ∧
    ∀ (terminal : Bool) (arguments : List String) (options : Options) (file text : String)
      (read : String → Except String String),
      parse terminal arguments = .check options → options.inputFile = some file → file ≠ "" →
      read file = .ok text → Fixture.ofText (some file) text ≠ .error .unprintable →
      ∃ outcome, (startCheck terminal arguments).finish read = some outcome ∧
        (outcome.exitCode = 0 ↔ IsSound options file text) ∧
        (outcome.exitCode = 1 ↔ ¬IsSound options file text) := by
  refine ⟨fun f selection => ⟨?_, f.anyErrors_run_iff selection⟩, Fixture.anyErrors_run_everything,
    fun f p => ⟨f.answers_run _ p (by simp), f.answers_run _ p rfl⟩, ?_⟩
  · rw [Fixture.run, List.forall₂_map_right_iff, List.forall₂_same]
    exact fun c _ => c.isErrorAt_run f.intrinsics selection
  · intro terminal arguments options file text read hparse hfile hne hread hresult
    rw [startCheck_eq_needs hparse hfile hne, Run.finish, hread]
    exact exitCode_checkText hresult

/-- A check of a variable that has neither TARGET nor SAVE. -/
def variableCheck : String :=
  "\x7b\"symbols\": [\x7b\"name\": \"x\", \"scope\": \"global\", " ++
    "\"details\": \x7b\"kind\": \"object\"\x7d\x7d], " ++
    "\"checks\": [\x7b\"name\": \"c\", " ++
    "\"expr\": \x7b\"node\": \"symbol\", \"symbol\": \"x\"\x7d\x7d]\x7d"

/-- The variable is no constant, which is no fault, and it is at fault as an initial data
target. -/
theorem exitCode_variableCheck :
    (∃ outcome, (startCheck false ["a.json", "--only", "constant"]).finish
        (fun _ => .ok variableCheck) = some outcome ∧ outcome.exitCode = 0) ∧
    ∃ outcome, (startCheck false ["--only", "initial-target", "a.json"]).finish
        (fun _ => .ok variableCheck) = some outcome ∧ outcome.exitCode = 1 := by
  obtain ⟨f, hf, herrors⟩ := Read.exists_of_map_toOption
    (show (Fixture.ofText (some "a.json") variableCheck).toOption.map (fun f =>
      (Report.anyErrors (f.run (.just .constant)),
        Report.anyErrors (f.run (.just .initialTarget)))) = some (false, true) by decide +kernel)
  obtain ⟨hconstant, htarget⟩ := Prod.mk.inj herrors
  have hresult : Fixture.ofText (some "a.json") variableCheck ≠ .error .unprintable := by
    rw [hf]
    exact nofun
  constructor
  · obtain ⟨outcome, hrun, hzero, -⟩ := exitCode_agrees.2.2.2 false ["a.json", "--only", "constant"]
      ⟨some .constant, false, some "a.json"⟩ "a.json" variableCheck (fun _ => .ok variableCheck)
      (by decide) rfl (by decide) rfl hresult
    exact ⟨outcome, hrun, hzero.2 ((isSound_iff hf).2 hconstant)⟩
  · obtain ⟨outcome, hrun, -, hone⟩ := exitCode_agrees.2.2.2 false
      ["--only", "initial-target", "a.json"] ⟨some .initialTarget, false, some "a.json"⟩ "a.json"
      variableCheck (fun _ => .ok variableCheck) (by decide) rfl (by decide) rfl hresult
    refine ⟨outcome, hrun, hone.2 fun hsound => ?_⟩
    exact nomatch htarget.symm.trans ((isSound_iff hf).1 hsound)

end CommandLine
end FortranExpr
