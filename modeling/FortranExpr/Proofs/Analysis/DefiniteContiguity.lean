/-
# Contiguity is never unknown

The verdict on contiguity has room for an unknown one: a walk that looks for a first answer has
none where no rule gives one, and a report says `unknown` then.  Only variables are walked over,
and each form of variable decides by itself (`Expr.DecidesContiguity`):

| variable | decided by |
| --- | --- |
| a name | its symbol |
| every other form | the rule of the form, which answers yes or no |

So no walk comes to a part of the variable that it was given, whatever substrings it is nested
in, the verdict is known, and no report says `unknown`.
-/

import FortranExpr.Proofs.Analysis.VariableContiguity
import FortranExpr.Proofs.Report
import FortranExpr.Proofs.Traversal.Log

namespace FortranExpr

namespace Expr

variable {e : Expr Symbol} {table : IntrinsicTable} {b : Bool}

/-- The form of the expression alone decides its contiguity: it names a symbol, or there is a
rule for the form that answers yes or no. -/
inductive DecidesContiguity (table : IntrinsicTable) : Expr Symbol → Bool → Prop
  | name (s : Symbol) : DecidesContiguity table (.entity (.symbol s)) s.isContiguous
  | rule {e : Expr Symbol} {b : Bool} : contiguityRule table (.expr e) = .answer (some b) →
      DecidesContiguity table e b

/-- **Every form of variable decides.** -/
theorem exists_decidesContiguity (h : e.isVariable = true) (table : IntrinsicTable) :
    ∃ b, e.DecidesContiguity table b := by
  cases e with
  | entity ref =>
    cases ref with
    | symbol s => exact ⟨_, .name s⟩
    | component base c => exact ⟨_, .rule rfl⟩
  | arrayRef | coindexed | complexPart | substring | call => exact ⟨_, .rule rfl⟩
  | _ => cases h

/-- The walk over an expression that decides gives its verdict, and visits nothing else. -/
theorem DecidesContiguity.traced_run (h : e.DecidesContiguity table b) :
    ((contiguity table).traced.run e).1 = some b ∧
      ((contiguity table).traced.run e).2.filterMap Event.item? = [.expr e] := by
  cases h with
  | name s =>
    rw [Pass.run, Pass.visit_of_named (contiguity table).traced rfl rfl]
    exact ⟨rfl, rfl⟩
  | rule hrule =>
    have htraced : (contiguity table).traced.rule (.expr e) = .answer (some b, []) :=
      congrArg (Rule.map _) hrule
    rw [Pass.run, Pass.visit_of_answer (contiguity table).traced htraced]
    exact ⟨rfl, rfl⟩

/-- The verdict on a variable is that of its form. -/
theorem DecidesContiguity.contiguous?_eq (h : e.DecidesContiguity table b)
    (hvariable : e.isVariable = true) : e.contiguous? table = some b := by
  rw [contiguous?, if_pos hvariable, Pass.run, ← Pass.fst_traced_visit]
  exact h.traced_run.1

/-- **The verdict is known,** so nothing is lost where unknown counts as no. -/
theorem contiguous?_eq_some (e : Expr Symbol) (table : IntrinsicTable) :
    e.contiguous? table = some (e.isSimplyContiguous table) := by
  have hknown : ∃ b, e.contiguous? table = some b := by
    cases hvariable : e.isVariable with
    | false => exact ⟨true, contiguous?_of_not_isVariable hvariable table⟩
    | true =>
      obtain ⟨b, hb⟩ := exists_decidesContiguity hvariable table
      exact ⟨b, hb.contiguous?_eq hvariable⟩
  obtain ⟨b, hb⟩ := hknown
  rw [isSimplyContiguous, hb]
  cases b <;> rfl

end Expr

/-! ### The lines of a report -/

namespace Report

/-- The titles of the four questions. -/
def titles : List String :=
  ["constant", "initial data target", "specification expression", "simply contiguous"]

/-- The line says yes or no to one of the four questions. -/
def IsDefinite (line : String) : Prop :=
  ∃ title ∈ titles, ∃ word ∈ ["yes", "no"], line = "  " ++ title ++ ": " ++ word

theorem isDefinite_of_mem_answerLine {title line : String} {answer : Option Bool}
    (htitle : title ∈ titles) (h : line ∈ answerLine title (answer.map some)) :
    IsDefinite line := by
  cases answer with
  | none => cases h
  | some b =>
    obtain rfl := List.mem_singleton.1 h
    refine ⟨title, htitle, answerText (some b), ?_, rfl⟩
    cases b <;> decide

theorem not_isDefinite_unknown : ¬IsDefinite "  simply contiguous: unknown" := by
  rw [IsDefinite]
  decide +kernel

/-- A report with a known verdict on contiguity, or none, has definite answers only. -/
theorem isDefinite_of_mem_answerLines {r : Report} {answer : Option Bool}
    (hcontiguous : r.contiguous = answer.map some) {line : String} (h : line ∈ r.answerLines) :
    IsDefinite line := by
  have htarget : (r.initialTarget.map fun t => some t.accepted) =
      (r.initialTarget.map TargetAnswer.accepted).map some := by rw [Option.map_map]; rfl
  have hspecification : (r.specification.map fun ds => some ds.isEmpty) =
      (r.specification.map List.isEmpty).map some := by rw [Option.map_map]; rfl
  rw [answerLines, hcontiguous, htarget, hspecification] at h
  simp only [List.mem_append] at h
  rcases h with ((h | h) | h) | h <;> exact isDefinite_of_mem_answerLine (by decide) h

end Report

theorem Check.contiguous_run (c : Check) (table : IntrinsicTable) (selection : Selection) :
    (c.run table selection).contiguous =
      (if selection.selects .contiguous then some (c.expr.isSimplyContiguous table)
        else none).map some := by
  have hanswer := c.answer?_run table selection .contiguous
  simp only [Report.answer?, Check.answer, Expr.contiguous?_eq_some] at hanswer
  rw [hanswer]
  split <;> rfl

/-- **Contiguity is never unknown.**  Every expression has a verdict, which is the one where
unknown counts as no.  A variable decides by its own form, and its parts are not visited.  And
in every report of every run the lines that answer a question say yes or no, so that none says
that contiguity is unknown. -/
theorem contiguity_definite (table : IntrinsicTable) :
    (∀ e : Expr Symbol, e.contiguous? table = some (e.isSimplyContiguous table)) ∧
    (∀ e : Expr Symbol, e.isVariable = true → ∃ b, e.DecidesContiguity table b ∧
      e.contiguous? table = some b ∧
      ((Expr.contiguity table).traced.run e).2.filterMap Event.item? = [.expr e]) ∧
    ∀ (f : Fixture) (selection : Selection), ∀ r ∈ f.run selection,
      (∀ color, r.format color = "\n".intercalate ((r.name ++ ": " ++ r.text) ::
        (r.answerLines ++ r.diagnostics.map fun d => d.render color))) ∧
      (∀ line ∈ r.answerLines, Report.IsDefinite line) ∧
      "  simply contiguous: unknown" ∉ r.answerLines := by
  refine ⟨fun e => e.contiguous?_eq_some table, fun e hvariable => ?_, fun f selection r hr => ?_⟩
  · obtain ⟨b, hb⟩ := Expr.exists_decidesContiguity hvariable table
    exact ⟨b, hb, hb.contiguous?_eq hvariable, hb.traced_run.2⟩
  · obtain ⟨c, -, rfl⟩ := List.mem_map.1 hr
    have hdefinite : ∀ line ∈ (c.run f.intrinsics selection).answerLines,
        Report.IsDefinite line := fun line hline =>
      Report.isDefinite_of_mem_answerLines (c.contiguous_run f.intrinsics selection) hline
    refine ⟨Report.format_eq _, hdefinite, fun h => ?_⟩
    exact Report.not_isDefinite_unknown (hdefinite _ h)

/-- The substring `a(:)(:)` of a substring of an array. -/
def nestedSubstring : Expr Symbol :=
  .substring (.substring (.entity (.symbol
    ⟨0, "a", .global, .object ⟨1, 0, .explicit, false, none, none⟩, []⟩)) .empty .empty)
    .empty .empty

/-- A fixture whose only check is on that substring. -/
def nestedSubstringFixture : Fixture :=
  ⟨.initial, ∅, [⟨"nested", .global, nestedSubstring, none⟩]⟩

/-- The substring decides by itself, and the report on it is definite. -/
theorem contiguity_definite_nestedSubstring :
    nestedSubstring.isVariable = true ∧ nestedSubstring.contiguous? ∅ = some false ∧
      ((Expr.contiguity ∅).traced.run nestedSubstring).2.filterMap Event.item? =
        [.expr nestedSubstring] ∧
      nestedSubstringFixture.run .everything ≠ [] ∧
      ∀ r ∈ nestedSubstringFixture.run .everything,
        "  simply contiguous: unknown" ∉ r.answerLines := by
  obtain ⟨-, hvariables, hreports⟩ := contiguity_definite ∅
  obtain ⟨_, -, -, hvisited⟩ := hvariables nestedSubstring rfl
  have hno : nestedSubstring.contiguous? ∅ = some false :=
    Expr.DecidesContiguity.contiguous?_eq (.rule rfl) rfl
  exact ⟨rfl, hno, hvisited, List.cons_ne_nil _ _,
    fun r hr => (hreports nestedSubstringFixture .everything r hr).2.2⟩

end FortranExpr
