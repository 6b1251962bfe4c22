/-
# What is said of an initial data target

The judgement on an initial data target and its findings come out of one walk.  `Expr.judge` is
that walk with the collector at hand: a finding is said the moment it is made, and the walk ends
where the expression is rejected.

`Expr.targetFaults` lists all that is at fault with the objects and components on the way, with
no regard to where the walk ends:

| node | faults |
| --- | --- |
| a name, a procedure with a symbol | those of the entity denoted |
| a component | ALLOCATABLE, then those of its base |
| an array reference, a substring | those of its base, its parent |
| a part of a complex value, parentheses | those of the operand |
| every other node | none |

What is said are the first of these faults, and all of them where the expression is accepted
(`judge_appends_faults`).  Each is said in an error of the constraint C765 that names the entity,
with a hint where an attribute would mend it (`TargetFault.IsTold`).
-/

import FortranExpr.Proofs.Analysis.InitialTarget
import FortranExpr.Proofs.Diagnostic.Collector
import FortranExpr.Proofs.Symbol
import FortranExpr.Report

namespace FortranExpr

/-! ### The faults on the way -/

/-- The entity is at fault. -/
def TargetFault.isOf (u : Symbol) : TargetFault → Bool
  | allocatable => u.has .allocatable
  | coarray => u.corank.isPositive
  | lacksTarget => !u.has .target
  | lacksSave => !u.isSaved

/-- The faults of the entity that a symbol denotes, in the order of the constructors. -/
def Symbol.targetFaults (s : Symbol) : List TargetFinding :=
  ([.allocatable, .coarray, .lacksTarget, .lacksSave].filter fun fault : TargetFault =>
    fault.isOf s.ultimate).map fun fault => ⟨fault, s.ultimate.name⟩

mutual

/-- All faults of the objects and components on the way from an expression to its object. -/
def Expr.targetFaults : Expr Symbol → List TargetFinding
  | .entity ref => ref.targetFaults
  | .designator (.user s) => s.targetFaults
  | .arrayRef base _ => base.targetFaults
  | .substring parent _ _ => parent.targetFaults
  | .complexPart complex _ => complex.targetFaults
  | .parens operand => operand.targetFaults
  | _ => []

/-- The faults on the way from a name or a component. -/
def DataRef.targetFaults : DataRef Symbol → List TargetFinding
  | .symbol s => s.targetFaults
  | .component base c =>
    (if c.ultimate.has .allocatable then [⟨.allocatable, c.name⟩] else []) ++ base.targetFaults

end

theorem Symbol.targetFindings_eq (s : Symbol) : s.targetFindings = s.targetFaults := by
  simp only [targetFindings, targetFaults, List.filter_cons, List.filter_nil, TargetFault.isOf,
    isAllocatable, ultimate_ultimate]
  cases s.ultimate.has .allocatable <;> cases s.ultimate.corank.isPositive <;>
    cases s.ultimate.has .target <;> cases s.ultimate.isSaved <;> rfl

theorem Expr.targetVerdict_of_rejected {e : Expr Symbol}
    (h : targetRule (.expr e) = .answer (.plain false)) : e.targetVerdict = .plain false :=
  Pass.visit_of_answer initialTarget h

/-! ### The texts -/

/-- `fault.IsTold place name d`: a user is told of the fault of the entity `name`, found when
`place` was checked, by the diagnostic `d`. -/
inductive TargetFault.IsTold (place : Option Span) (name : String) :
    TargetFault → Diagnostic → Prop
  | allocatable : IsTold place name .allocatable
      { level := .error
        message := "An initial data target may not be a reference to an ALLOCATABLE '" ++ name ++
          "'"
        span := place
        code := some "C765"
        hint := none }
  | coarray : IsTold place name .coarray
      { level := .error
        message := "An initial data target may not be a reference to a coarray '" ++ name ++ "'"
        span := place
        code := some "C765"
        hint := none }
  | lacksTarget : IsTold place name .lacksTarget
      { level := .error
        message := "An initial data target may not be a reference to an object '" ++ name ++
          "' that lacks the TARGET attribute"
        span := place
        code := some "C765"
        hint := some ("add TARGET to the declaration of '" ++ name ++ "'") }
  | lacksSave : IsTold place name .lacksSave
      { level := .error
        message := "An initial data target may not be a reference to an object '" ++ name ++
          "' that lacks the SAVE attribute"
        span := place
        code := some "C765"
        hint := some ("add SAVE to the declaration of '" ++ name ++ "'") }

namespace TargetFault

variable {context : Context} {fault : TargetFault} {name : String}

/-- Two pieces of a text around a name, put together. -/
theorem append_named {lead noun joined : String} (h : lead ++ noun = joined)
    (name rest : String) : lead ++ (noun ++ name ++ rest) = joined ++ name ++ rest := by
  rw [← h, String.append_assoc, String.append_assoc, String.append_assoc]

/-- With its message in one piece a fault is told as the relation says. -/
theorem isTold_of_message {message : String} (h : fault.message name = message)
    (htold : fault.IsTold context.location name
      { level := .error
        message
        span := context.location
        code := some "C765"
        hint := fault.missingAttribute?.map fun a =>
          "add " ++ a ++ " to the declaration of '" ++ name ++ "'" }) :
    fault.IsTold context.location name (context.place (fault.diagnostic name)) := by
  subst h
  exact htold

/-- What is said of a fault is what has to be told of it. -/
theorem isTold_diagnostic (context : Context) (fault : TargetFault) (name : String) :
    fault.IsTold context.location name (context.place (fault.diagnostic name)) := by
  cases fault with
  | allocatable => exact isTold_of_message (append_named (by decide) name _) .allocatable
  | coarray => exact isTold_of_message (append_named (by decide) name _) .coarray
  | lacksTarget => exact isTold_of_message (append_named (by decide) name _) .lacksTarget
  | lacksSave => exact isTold_of_message (append_named (by decide) name _) .lacksSave

/-- A fault is told in one way only. -/
theorem IsTold.unique {place : Option Span} {d d' : Diagnostic}
    (h : fault.IsTold place name d) (h' : fault.IsTold place name d') : d = d' := by
  cases h <;> cases h' <;> rfl

end TargetFault

/-- **The diagnostic of every finding,** as it is said at the place of a check. -/
theorem TargetFinding.place_diagnostic_eq_iff {context : Context} {f : TargetFinding}
    {d : Diagnostic} :
    context.place f.diagnostic = d ↔ f.fault.IsTold context.location f.name d := by
  have htold := TargetFault.isTold_diagnostic context f.fault f.name
  constructor
  · rintro rfl
    exact htold
  · exact htold.unique

/-! ### The walk with a collector -/

/-- Says a finding, if something is wrong. -/
def sayIf (context : Context) (wrong : Bool) (f : TargetFinding) : StateM Collector Unit :=
  if wrong then modify fun sink => sink.say context f.diagnostic else pure ()

/-- Says what is wrong with the entity denoted, and accepts it all the same. -/
def Symbol.judge (context : Context) (s : Symbol) : StateM Collector Bool := do
  let u := s.ultimate
  sayIf context u.isAllocatable ⟨.allocatable, u.name⟩
  sayIf context u.corank.isPositive ⟨.coarray, u.name⟩
  sayIf context (!u.has .target) ⟨.lacksTarget, u.name⟩
  sayIf context (!u.isSaved) ⟨.lacksSave, u.name⟩
  return true

mutual

/-- Judges an expression, and says each finding when it is made. -/
def Expr.judge (context : Context) : Expr Symbol → StateM Collector Bool
  | .entity ref => ref.judge context
  | .nullPointer => return true
  | .designator (.user s) => s.judge context
  | .designator (.intrinsic _) => return true
  | .arrayRef base subscripts => do
    if ← base.judge context then return subscripts.all Subscript.isStatic else return false
  | .substring parent lower upper =>
    if lower.isConstant && upper.isConstant then parent.judge context else return false
  | .complexPart complex _ => complex.judge context
  | .parens operand => operand.judge context
  | _ => return false

/-- Judges a name or a component. -/
def DataRef.judge (context : Context) : DataRef Symbol → StateM Collector Bool
  | .symbol s => s.judge context
  | .component base c => do
    sayIf context c.isAllocatable ⟨.allocatable, c.name⟩
    base.judge context

end

/-! ### What is said is what is found -/

/-- A computation answers like a verdict, and says its findings one after the other. -/
def Says (context : Context) (judging : StateM Collector Bool) (v : TargetVerdict) : Prop :=
  ∀ sink, judging.run sink =
    (v.accepted, sink.addAll (v.findings.map fun f => context.place f.diagnostic))

section Says

variable {context : Context} {judging : StateM Collector Bool} {v : TargetVerdict}

theorem says_return (b : Bool) : Says context (return b) (.plain b) := fun _ => rfl

theorem Says.after_sayIf (h : Says context judging v) (wrong : Bool) (f : TargetFinding) :
    Says context (do sayIf context wrong f; judging)
      ((⟨true, if wrong then [f] else []⟩ : TargetVerdict).and v) := by
  intro sink
  cases wrong with
  | false => exact h sink
  | true => exact h (sink.say context f.diagnostic)

theorem Says.return_if (h : Says context judging v) (b : Bool) :
    Says context (do if ← judging then return b else return false) (v.and (.plain b)) := by
  intro sink
  obtain ⟨accepted, findings⟩ := v
  have hrun : (do if ← judging then return b else return false : StateM Collector Bool).run sink =
      (accepted && b, (judging.run sink).2) := by
    rw [StateT.run_bind, h sink]
    cases accepted <;> rfl
  rw [hrun, h sink, TargetVerdict.and, TargetVerdict.plain, List.append_nil]

/-- The four remarks on an entity, together its findings. -/
theorem Symbol.says_judge (context : Context) (s : Symbol) :
    Says context (s.judge context) ⟨true, s.targetFindings⟩ := by
  have hend : Says context (return true) (.plain true) := says_return true
  have hsays := (((hend.after_sayIf (!s.ultimate.isSaved) ⟨.lacksSave, s.ultimate.name⟩).after_sayIf
    (!s.ultimate.has .target) ⟨.lacksTarget, s.ultimate.name⟩).after_sayIf
    s.ultimate.corank.isPositive ⟨.coarray, s.ultimate.name⟩).after_sayIf
    s.ultimate.isAllocatable ⟨.allocatable, s.ultimate.name⟩
  simp only [TargetVerdict.and, TargetVerdict.plain, Bool.and_true, List.append_nil] at hsays
  rw [Symbol.targetFindings, List.append_assoc, List.append_assoc]
  exact hsays

end Says

mutual

/-- **The walk with a collector** answers the verdict and says the findings. -/
theorem Expr.says_judge (context : Context) :
    ∀ e : Expr Symbol, Says context (e.judge context) e.targetVerdict
  | .entity ref => by
    rw [Expr.judge]
    exact ref.says_judge context
  | .nullPointer => by
    rw [Expr.judge, Expr.targetVerdict_nullPointer]
    exact says_return true
  | .designator (.user s) => by
    rw [Expr.judge, Expr.targetVerdict_procedure]
    exact s.says_judge context
  | .designator (.intrinsic name) => by
    rw [Expr.judge, Expr.targetVerdict_intrinsic]
    exact says_return true
  | .arrayRef base subscripts => by
    rw [Expr.judge, Expr.targetVerdict_arrayRef]
    exact (base.says_judge context).return_if _
  | .substring parent lower upper => by
    rw [Expr.judge, Expr.targetVerdict_substring]
    split
    · exact parent.says_judge context
    · exact says_return false
  | .complexPart complex part => by
    rw [Expr.judge, Expr.targetVerdict_complexPart]
    exact complex.says_judge context
  | .parens operand => by
    rw [Expr.judge, Expr.targetVerdict_parens]
    exact operand.says_judge context
  | .constant _ | .boz _ | .staticData _ _ | .call _ _ _ | .unary _ _ _ | .binary _ _ _ _
  | .relational _ _ _ | .coindexed _ _ _ _ _ | .arrayConstructor _ _
  | .structureConstructor _ _ _ | .typeParamInquiry _ _ | .descriptorInquiry _ _ _ => by
    rw [Expr.judge, Expr.targetVerdict_of_rejected rfl]
    · exact says_return false
    all_goals exact nofun

/-- So it is for a name or a component. -/
theorem DataRef.says_judge (context : Context) :
    ∀ ref : DataRef Symbol, Says context (ref.judge context) (Expr.entity ref).targetVerdict
  | .symbol s => by
    rw [DataRef.judge, Expr.targetVerdict_symbol]
    exact s.says_judge context
  | .component base c => by
    rw [DataRef.judge, Expr.targetVerdict_component]
    exact (base.says_judge context).after_sayIf _ _

end

/-! ### What is found are the first faults on the way -/

/-- The findings of a verdict are the first of the faults, and all of them where it accepts. -/
structure TargetVerdict.Reports (v : TargetVerdict) (faults : List TargetFinding) : Prop where
  findings_prefix : v.findings <+: faults
  findings_eq : v.accepted = true → v.findings = faults

namespace TargetVerdict

variable {v : TargetVerdict} {faults : List TargetFinding}

/-- A rejection out of hand reports none of the faults. -/
theorem reports_plain_false : (plain false).Reports faults := ⟨List.nil_prefix, nofun⟩

/-- An acceptance reports its own findings. -/
theorem reports_accepted (own : List TargetFinding) : Reports ⟨true, own⟩ own :=
  ⟨List.prefix_rfl, fun _ => rfl⟩

/-- What is found first is a fault before those found later. -/
theorem Reports.after (h : v.Reports faults) (own : List TargetFinding) :
    ((⟨true, own⟩ : TargetVerdict).and v).Reports (own ++ faults) where
  findings_prefix := (List.prefix_append_right_inj own).2 h.findings_prefix
  findings_eq haccepted := congrArg (own ++ ·) (h.findings_eq haccepted)

/-- A later condition without findings of its own may reject, and reports no less. -/
theorem Reports.and_plain (h : v.Reports faults) (b : Bool) :
    (v.and (.plain b)).Reports faults where
  findings_prefix := by
    rw [and, plain, List.append_nil]
    exact h.findings_prefix
  findings_eq haccepted := by
    rw [and, plain, List.append_nil]
    exact h.findings_eq ((Bool.and_eq_true_iff.1 haccepted).1)

end TargetVerdict

mutual

/-- **The verdict on an expression** reports the faults on the way. -/
theorem Expr.reports_targetFaults : ∀ e : Expr Symbol, e.targetVerdict.Reports e.targetFaults
  | .entity ref => by
    rw [Expr.targetFaults]
    exact ref.reports_targetFaults
  | .nullPointer => by
    rw [Expr.targetVerdict_nullPointer, Expr.targetFaults]
    · exact TargetVerdict.reports_accepted []
    all_goals exact nofun
  | .designator (.user s) => by
    rw [Expr.targetVerdict_procedure, Expr.targetFaults, s.targetFindings_eq]
    exact TargetVerdict.reports_accepted _
  | .designator (.intrinsic name) => by
    rw [Expr.targetVerdict_intrinsic, Expr.targetFaults]
    · exact TargetVerdict.reports_accepted []
    all_goals exact nofun
  | .arrayRef base subscripts => by
    rw [Expr.targetVerdict_arrayRef, Expr.targetFaults]
    exact base.reports_targetFaults.and_plain _
  | .substring parent lower upper => by
    rw [Expr.targetVerdict_substring, Expr.targetFaults]
    split
    · exact parent.reports_targetFaults
    · exact TargetVerdict.reports_plain_false
  | .complexPart complex part => by
    rw [Expr.targetVerdict_complexPart, Expr.targetFaults]
    exact complex.reports_targetFaults
  | .parens operand => by
    rw [Expr.targetVerdict_parens, Expr.targetFaults]
    exact operand.reports_targetFaults
  | .constant _ | .boz _ | .staticData _ _ | .call _ _ _ | .unary _ _ _ | .binary _ _ _ _
  | .relational _ _ _ | .coindexed _ _ _ _ _ | .arrayConstructor _ _
  | .structureConstructor _ _ _ | .typeParamInquiry _ _ | .descriptorInquiry _ _ _ => by
    rw [Expr.targetVerdict_of_rejected rfl]
    exact TargetVerdict.reports_plain_false

/-- So does the verdict on a name or a component. -/
theorem DataRef.reports_targetFaults :
    ∀ ref : DataRef Symbol, (Expr.entity ref).targetVerdict.Reports ref.targetFaults
  | .symbol s => by
    rw [Expr.targetVerdict_symbol, DataRef.targetFaults, s.targetFindings_eq]
    exact TargetVerdict.reports_accepted _
  | .component base c => by
    rw [Expr.targetVerdict_component, DataRef.targetFaults]
    exact base.reports_targetFaults.after _

end

/-! ### What is said -/

/-- **The diagnostics of an initial data target.**  Judging an expression leaves in a collector
what it held, and after that the findings, whatever it held.  The findings are the first of the
faults on the way, and all of them, in their order, where the expression is accepted.  Each is
said in the words of its fault, names its entity and stands at the place that is judged.  A
check judges with an empty collector. -/
theorem Expr.judge_appends_faults (e : Expr Symbol) :
    e.targetVerdict.findings <+: e.targetFaults ∧
    (e.targetVerdict.accepted = true → e.targetVerdict.findings = e.targetFaults) ∧
    (∀ (context : Context) (sink : Collector),
      ((e.judge context).run sink).1 = e.targetVerdict.accepted ∧
      ((e.judge context).run sink).2.diagnostics =
        sink.diagnostics ++ e.targetVerdict.findings.map fun f => context.place f.diagnostic) ∧
    (∀ (context : Context) (f : TargetFinding) (d : Diagnostic),
      context.place f.diagnostic = d ↔ f.fault.IsTold context.location f.name d) ∧
    ∀ (name : String) (scope : Scope) (at? : Option Span),
      (⟨name, scope, e, at?⟩ : Check).targetAnswer =
        ⟨((e.judge ⟨at?⟩).run .empty).1, ((e.judge ⟨at?⟩).run .empty).2.diagnostics⟩ := by
  have hrun (context : Context) (sink : Collector) :
      ((e.judge context).run sink).1 = e.targetVerdict.accepted ∧
      ((e.judge context).run sink).2.diagnostics =
        sink.diagnostics ++ e.targetVerdict.findings.map fun f => context.place f.diagnostic := by
    rw [e.says_judge context sink]
    exact ⟨rfl, sink.diagnostics_addAll _⟩
  refine ⟨e.reports_targetFaults.findings_prefix, e.reports_targetFaults.findings_eq, hrun,
    fun context f d => TargetFinding.place_diagnostic_eq_iff, fun name scope at? => ?_⟩
  obtain ⟨haccepted, hdiagnostics⟩ := hrun ⟨at?⟩ .empty
  rw [haccepted, hdiagnostics]
  rfl

end FortranExpr
