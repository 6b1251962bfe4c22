/-
# The problems of a specification expression

`Expr.problems` lists every problem of an expression in a scope, in source order and
without stopping.  The check finds the first of them.

| node | its problems |
| --- | --- |
| a name | the problem of the reference, if it has one (`Symbol.ReferenceProblem`) |
| a procedure by itself, a coindexed reference | one, and nothing below it |
| a component | those of its base |
| a read of a descriptor, a call of `present` or `kind` | none |
| a call of a procedure that is not pure | one, and nothing below it |
| another call | those of its arguments |
| every other node | those of its parts |

The walk goes by `Item.children` and by `Expr.specificationRule`; `problems_of_usual` and its
companions say what each rule leaves of the list, and `visit_specification` is the walk.

A user sees a problem as a text (`SpecificationProblem.IsTold`), and the text in a diagnostic
of the constraint C1010.
-/

import FortranExpr.Proofs.Analysis.Constancy
import FortranExpr.Report
import Mathlib.Tactic.SplitIfs

namespace FortranExpr

/-! ### All problems -/

mutual

/-- All problems of an expression in a specification of `scope`, in source order. -/
def Expr.problems (scope : Scope) : Expr Symbol → List SpecificationProblem
  | .entity ref => ref.problems scope
  | .constant _ | .boz _ | .nullPointer | .staticData _ _ => []
  | .designator _ => [.dummyProcedure]
  | .call (.user s) args _ =>
    if s.isPureProcedure then args.flatMap fun a => a.problems scope
    else [.impureFunction s.name]
  | .call (.intrinsic name) args _ =>
    if name = "present" ∨ name = "kind" then [] else args.flatMap fun a => a.problems scope
  | .unary _ _ operand | .parens operand => operand.problems scope
  | .binary _ _ left right | .relational _ left right =>
    left.problems scope ++ right.problems scope
  | .arrayRef base subscripts =>
    base.problems scope ++ subscripts.flatMap fun s => s.problems scope
  | .coindexed _ _ _ _ _ => [.coindexed]
  | .substring parent lower upper =>
    parent.problems scope ++ lower.problems scope ++ upper.problems scope
  | .complexPart complex _ => complex.problems scope
  | .arrayConstructor _ values => values.flatMap fun v => v.problems scope
  | .structureConstructor _ parameters components =>
    (parameters.flatMap fun p => p.problems scope) ++
      components.flatMap fun c => c.problems scope
  | .typeParamInquiry _ none | .descriptorInquiry _ _ _ => []
  | .typeParamInquiry _ (some base) => base.problems scope

/-- The problems of a name, or of the object that a component is part of. -/
def DataRef.problems (scope : Scope) : DataRef Symbol → List SpecificationProblem
  | .symbol s => (s.specificationProblem scope).toList
  | .component base _ => base.problems scope

/-- The problems of the expression in a slot. -/
def Slot.problems (scope : Scope) : Slot Symbol → List SpecificationProblem
  | .empty => []
  | .filled e => e.problems scope

/-- The problems of the bounds and of the stride. -/
def Triplet.problems (scope : Scope) : Triplet Symbol → List SpecificationProblem
  | ⟨lower, upper, stride⟩ =>
    lower.problems scope ++ upper.problems scope ++ stride.problems scope

/-- The problems of a subscript. -/
def Subscript.problems (scope : Scope) : Subscript Symbol → List SpecificationProblem
  | .element e => e.problems scope
  | .triplet t => t.problems scope

/-- The problems of an item of an array constructor. -/
def ArrayItem.problems (scope : Scope) : ArrayItem Symbol → List SpecificationProblem
  | .expr e => e.problems scope
  | .impliedDo loop => loop.problems scope

/-- The problems of the bounds, of the stride and of the values of a loop. -/
def ImpliedDo.problems (scope : Scope) : ImpliedDo Symbol → List SpecificationProblem
  | ⟨_, lower, upper, stride, values⟩ =>
    lower.problems scope ++ upper.problems scope ++ stride.problems scope ++
      values.flatMap fun v => v.problems scope

/-- The problems of the value of a type parameter. -/
def ParamValue.problems (scope : Scope) : ParamValue Symbol → List SpecificationProblem
  | .explicit e => e.problems scope
  | .assumed | .deferred => []

/-- The problems of the setting of a type parameter. -/
def ParamSetting.problems (scope : Scope) : ParamSetting Symbol → List SpecificationProblem
  | ⟨_, value⟩ => value.problems scope

/-- The problems of the value of a component. -/
def ComponentValue.problems (scope : Scope) : ComponentValue Symbol → List SpecificationProblem
  | ⟨_, value⟩ => value.problems scope

end

/-- The problems of an item. -/
def Item.problems (scope : Scope) : Item Symbol → List SpecificationProblem
  | .absent => []
  | .symbol s => (s.specificationProblem scope).toList
  | .expr e => e.problems scope
  | .subscript s => s.problems scope
  | .triplet t => t.problems scope
  | .impliedDo loop => loop.problems scope
  | .param v => v.problems scope

/-! ### The texts -/

/-- `p.IsTold words`: a user is told of the problem `p` in these words.  A problem with an
entity quotes its name. -/
inductive SpecificationProblem.IsTold : SpecificationProblem → String → Prop
  | optionalDummy (name : String) :
      IsTold (.optionalDummy name) ("reference to OPTIONAL dummy argument '" ++ name ++ "'")
  | intentOutDummy (name : String) :
      IsTold (.intentOutDummy name) ("reference to INTENT(OUT) dummy argument '" ++ name ++ "'")
  | dummyProcedure : IsTold .dummyProcedure "dummy procedure argument"
  | localEntity (name : String) :
      IsTold (.localEntity name) ("reference to local entity '" ++ name ++ "'")
  | coindexed : IsTold .coindexed "coindexed reference"
  | impureFunction (name : String) :
      IsTold (.impureFunction name) ("reference to impure function '" ++ name ++ "'")

/-- **The text of every problem.** -/
theorem SpecificationProblem.text_eq_iff {p : SpecificationProblem} {words : String} :
    p.text = words ↔ p.IsTold words := by
  constructor
  · rintro rfl
    cases p with
    | optionalDummy name => exact .optionalDummy name
    | intentOutDummy name => exact .intentOutDummy name
    | dummyProcedure => exact .dummyProcedure
    | localEntity name => exact .localEntity name
    | coindexed => exact .coindexed
    | impureFunction name => exact .impureFunction name
  · intro h
    cases h <;> rfl

/-! ### The problem of a reference -/

namespace Symbol

/-- `s.ReferenceProblem scope p`: a reference to `s` in a specification of `scope` has the
problem `p`.  Of a dummy argument OPTIONAL is asked before INTENT(OUT), and both before
whether it is a data object. -/
inductive ReferenceProblem (scope : Scope) (s : Symbol) : SpecificationProblem → Prop
  | optionalDummy : s.isNamedConstant = false → s.isDummy = true → s.has .optional = true →
      ReferenceProblem scope s (.optionalDummy s.name)
  | intentOutDummy : s.isNamedConstant = false → s.isDummy = true → s.has .optional = false →
      s.has .intentOut = true → ReferenceProblem scope s (.intentOutDummy s.name)
  | dummyProcedure : s.isNamedConstant = false → s.isDummy = true → s.has .optional = false →
      s.has .intentOut = false → (∀ declared, s.details ≠ .object declared) →
      ReferenceProblem scope s .dummyProcedure
  | localEntity : s.isNamedConstant = false → s.isDummy = false →
      (∀ target, s.details ≠ .use target ∧ s.details ≠ .hostAssoc target) →
      s.owner.kind ≠ .module →
      (∀ declared, s.details = .object declared → declared.commonBlock = none) →
      scope.hasAncestor s.owner = false → ReferenceProblem scope s (.localEntity s.name)

/-- A symbol is no alias when it denotes no other one. -/
theorem details_isAlias_eq_false_iff {d : Details Symbol} :
    d.isAlias = false ↔ ∀ target, d ≠ .use target ∧ d ≠ .hostAssoc target := by
  cases d <;> simp [Details.isAlias]

/-- Only a data object can be in a COMMON block. -/
theorem details_isInCommon_eq_false_iff {d : Details Symbol} :
    d.isInCommon = false ↔ ∀ declared, d = .object declared → declared.commonBlock = none := by
  cases d <;> simp [Details.isInCommon, Details.object?]

/-- A symbol is no data object when it denotes none. -/
theorem details_object?_isSome_eq_false_iff {d : Details Symbol} :
    d.object?.isSome = false ↔ ∀ declared, d ≠ .object declared := by
  cases d <;> simp [Details.object?]

/-- The problem of a reference, case by case. -/
theorem specificationProblem_eq_some_iff {scope : Scope} {s : Symbol}
    {p : SpecificationProblem} :
    s.specificationProblem scope = some p ↔ s.ReferenceProblem scope p := by
  constructor
  · intro h
    unfold specificationProblem at h
    split_ifs at h with hconstant hdummy hoptional hout hobject hlocal <;>
      simp only [Bool.not_eq_true] at * <;> obtain rfl := Option.some.inj h
    · exact .optionalDummy hconstant hdummy hoptional
    · exact .intentOutDummy hconstant hdummy hoptional hout
    · exact .dummyProcedure hconstant hdummy hoptional hout
        (details_object?_isSome_eq_false_iff.1 hobject)
    · simp only [Bool.or_eq_false_iff, decide_eq_false_iff_not] at hlocal
      obtain ⟨⟨⟨halias, hmodule⟩, hcommon⟩, hancestor⟩ := hlocal
      exact .localEntity hconstant hdummy (details_isAlias_eq_false_iff.1 halias) hmodule
        (details_isInCommon_eq_false_iff.1 hcommon) hancestor
  · rintro (⟨hc, hd, ho⟩ | ⟨hc, hd, ho, hi⟩ | ⟨hc, hd, ho, hi, hp⟩ | ⟨hc, hd, ha, hm, hb, hs⟩)
    · simp [specificationProblem, hc, hd, ho]
    · simp [specificationProblem, hc, hd, ho, hi]
    · simp [specificationProblem, hc, hd, ho, hi, details_object?_isSome_eq_false_iff.2 hp]
    · simp [specificationProblem, hc, hd, hm, hs, details_isAlias_eq_false_iff.2 ha,
        details_isInCommon_eq_false_iff.2 hb]

end Symbol

/-! ### What each rule leaves of the list -/

namespace Item

variable (scope : Scope)

@[simp] theorem problems_absent : problems scope absent = [] := rfl

@[simp] theorem problems_symbol (s : Symbol) :
    problems scope (symbol s) = (s.specificationProblem scope).toList := rfl

@[simp] theorem problems_expr (e : Expr Symbol) :
    problems scope (expr e) = e.problems scope := rfl

@[simp] theorem problems_subscript (s : Subscript Symbol) :
    problems scope (subscript s) = s.problems scope := rfl

@[simp] theorem problems_triplet (t : Triplet Symbol) :
    problems scope (triplet t) = t.problems scope := rfl

@[simp] theorem problems_impliedDo (loop : ImpliedDo Symbol) :
    problems scope (impliedDo loop) = loop.problems scope := rfl

@[simp] theorem problems_param (v : ParamValue Symbol) :
    problems scope (param v) = v.problems scope := rfl

/-- A slot as a stop of the walk has the problems of the slot. -/
@[simp] theorem problems_slot_item (s : Slot Symbol) :
    problems scope s.item = s.problems scope := by
  cases s with
  | empty => rw [Slot.item, problems, Slot.problems]
  | filled e => rw [Slot.item, problems, Slot.problems]

/-- So does an item of an array constructor. -/
@[simp] theorem problems_arrayItem_item (a : ArrayItem Symbol) :
    problems scope a.item = a.problems scope := by
  cases a with
  | expr e => rw [ArrayItem.item, problems, ArrayItem.problems]
  | impliedDo loop => rw [ArrayItem.item, problems, ArrayItem.problems]

@[simp] theorem problems_paramSetting_value (p : ParamSetting Symbol) :
    p.value.problems scope = p.problems scope := by
  obtain ⟨name, value⟩ := p
  rw [ParamSetting.problems]

@[simp] theorem problems_componentValue_value (c : ComponentValue Symbol) :
    c.value.problems scope = c.problems scope := by
  obtain ⟨component, value⟩ := c
  rw [ComponentValue.problems]

/-- An item that is treated like every other has the problems of its parts. -/
theorem problems_of_usual {i : Item Symbol} (h : Expr.specificationRule i = .usual)
    (hs : i.named? = none) : i.problems scope = i.children.flatMap (problems scope) := by
  cases i with
  | absent => rfl
  | symbol s => cases hs
  | subscript s => cases s <;> simp [Subscript.problems, children]
  | triplet t =>
    obtain ⟨lower, upper, stride⟩ := t
    simp [Triplet.problems, children]
  | impliedDo loop =>
    obtain ⟨index, lower, upper, stride, values⟩ := loop
    simp [ImpliedDo.problems, children, List.flatMap_map]
  | param v => cases v <;> simp [ParamValue.problems, children]
  | expr e =>
    cases e with
    | entity ref =>
      cases ref with
      | symbol s => cases hs
      | component base c => cases h
    | designator | coindexed | descriptorInquiry => cases h
    | call proc args rank =>
      cases proc <;> simp only [Expr.specificationRule] at h <;> split at h <;> cases h
    | typeParamInquiry parameter base =>
      cases base <;> simp [Expr.problems, children, Expr.children]
    | _ => simp [Expr.problems, children, Expr.children, List.flatMap_map]

/-- An item that only names a symbol has the problem of the reference. -/
theorem problems_of_named {i : Item Symbol} {s : Symbol} (hs : i.named? = some s) :
    i.problems scope = (s.specificationProblem scope).toList := by
  rcases named?_eq_some_iff.1 hs with rfl | rfl
  · rw [problems]
  · rw [problems, Expr.problems, DataRef.problems]

/-- An item with an answer of its own has the problem it answers with, if any. -/
theorem problems_of_answer {i : Item Symbol} {r : Option SpecificationProblem}
    (h : Expr.specificationRule i = .answer r) : i.problems scope = r.toList := by
  unfold Expr.specificationRule at h
  split at h
  · cases h
    rw [problems, Expr.problems, Option.toList]
  · cases h
    rw [problems, Expr.problems, Option.toList]
  · cases h
  · cases h
    rw [problems, Expr.problems, Option.toList]
  · split at h
    · cases h
    · rename_i hpure
      cases h
      rw [problems, Expr.problems, if_neg hpure, Option.toList]
  · split at h
    · rename_i hname
      cases h
      rw [Expr.isConstant_call, Procedure.isIntrinsic, Bool.or_eq_true, decide_eq_true_iff,
        beq_iff_eq] at hname
      rw [problems, Expr.problems, if_pos hname, Option.toList]
    · cases h
  · cases h

/-- Of a component only the base is looked at. -/
theorem problems_of_firstPart {i : Item Symbol} {lead : Option SpecificationProblem}
    (h : Expr.specificationRule i = .firstPart lead) :
    lead = none ∧ i.problems scope = (i.children.take 1).flatMap (problems scope) := by
  unfold Expr.specificationRule at h
  split at h
  case h_3 =>
    cases h
    exact ⟨rfl, by simp [Expr.problems, DataRef.problems, children, Expr.children]⟩
  all_goals first | cases h | (split at h <;> cases h)

/-- Of a call only the arguments are looked at. -/
theorem problems_of_laterParts {i : Item Symbol} {lead : Option SpecificationProblem}
    (h : Expr.specificationRule i = .laterParts lead) :
    lead = none ∧ i.problems scope = (i.children.drop 1).flatMap (problems scope) := by
  unfold Expr.specificationRule at h
  split at h
  · cases h
  · cases h
  · cases h
  · cases h
  · split at h
    · rename_i hpure
      cases h
      refine ⟨rfl, ?_⟩
      simp [Expr.problems, hpure, children, Expr.children, List.flatMap_map]
    · cases h
  · split at h
    · cases h
    · rename_i hname
      cases h
      rw [Expr.isConstant_call, Procedure.isIntrinsic, Bool.or_eq_true, decide_eq_true_iff,
        beq_iff_eq] at hname
      refine ⟨rfl, ?_⟩
      rw [problems, Expr.problems, if_neg hname]
      simp [children, Expr.children, List.flatMap_map]
  · cases h

end Item

namespace Expr

/-! ### The walk -/

/-- What the walk finds in a sequence of items: the first of all their problems. -/
theorem visitAll_specification (scope : Scope) {l : List (Item Symbol)}
    (h : ∀ c ∈ l, (specification scope).visit c = (c.problems scope).head?) :
    (specification scope).visitAll (specification scope).visit none l =
      (l.flatMap (Item.problems scope)).head? := by
  rw [Pass.visitAll_congr (specification scope) h, List.head?_flatMap]
  exact Pass.visitAll_any (Symbol.specificationProblem scope) specificationRule _ none l

/-- **The walk finds the first problem** of every item. -/
theorem visit_specification (scope : Scope) (i : Item Symbol) :
    (specification scope).visit i = (i.problems scope).head? := by
  induction i using Item.induction with
  | step i ih =>
    cases hrule : specificationRule i with
    | answer r =>
      rw [Pass.visit_of_answer (specification scope) hrule, i.problems_of_answer scope hrule,
        Option.head?_toList]
      rfl
    | firstPart lead =>
      obtain ⟨rfl, hi⟩ := i.problems_of_firstPart scope hrule
      rw [Pass.visit_of_firstPart (specification scope) hrule, hi]
      exact visitAll_specification scope fun c hc => ih c (List.mem_of_mem_take hc)
    | laterParts lead =>
      obtain ⟨rfl, hi⟩ := i.problems_of_laterParts scope hrule
      rw [Pass.visit_of_laterParts (specification scope) hrule, hi]
      exact visitAll_specification scope fun c hc => ih c (List.mem_of_mem_drop hc)
    | usual =>
      cases hs : i.named? with
      | some s =>
        rw [Pass.visit_of_named (specification scope) hrule hs, i.problems_of_named scope hs,
          Option.head?_toList]
        rfl
      | none =>
        rw [Pass.visit_of_usual (specification scope) hrule hs, i.problems_of_usual scope hrule hs]
        exact visitAll_specification scope ih

/-- **The check tells the first problem in source order** and no other.  An expression has the
text of the first of all its problems, or none when it has no problem; the problem of a name is
that of the reference, and every problem is told in its own words.  A check says one diagnostic
with that text, at its own place. -/
theorem specificationProblem?_eq_head? (e : Expr Symbol) (scope : Scope) :
    e.specificationProblem? scope = (e.problems scope).head? ∧
      (e.specificationProblem? scope).map SpecificationProblem.text =
        ((e.problems scope).map SpecificationProblem.text).head? ∧
      (∀ (s : Symbol) p, s.specificationProblem scope = some p ↔ s.ReferenceProblem scope p) ∧
      (∀ (p : SpecificationProblem) words, p.text = words ↔ p.IsTold words) ∧
      ∀ name place, (⟨name, scope, e, place⟩ : Check).specificationDiagnostics =
        ((e.problems scope).take 1).map fun p =>
          { level := .error
            message := "Invalid specification expression: " ++ p.text
            span := place
            code := some "C1010"
            hint := none } := by
  have hfirst : e.specificationProblem? scope = (e.problems scope).head? :=
    visit_specification scope (.expr e)
  refine ⟨hfirst, by rw [hfirst, List.head?_map], fun s p =>
    Symbol.specificationProblem_eq_some_iff, fun p words => SpecificationProblem.text_eq_iff,
    fun name place => ?_⟩
  rw [Check.specificationDiagnostics, hfirst, List.take_one]
  rfl

end Expr
end FortranExpr
