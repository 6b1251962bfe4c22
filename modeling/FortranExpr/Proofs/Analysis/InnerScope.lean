/-
# Specifications of an inner scope

What may stand in a specification of a scope may stand in one of every scope inside it.  A
name is local as long as the scope it belongs to is not one of the scopes around, and from
inside there are more of these.  Nothing else about a reference depends on the scope.

| name | outer scope | inner scope |
| --- | --- | --- |
| of a scope around the outer one | no problem | no problem |
| of the outer scope, or of one between the two | local | no problem |
| of any other scope | local | local |
| a dummy argument | OPTIONAL, INTENT(OUT), no data object | the same |

So the problems in the inner scope are those in the outer one, in the same order, with some
local names left out (`LosesLocals`).
-/

import FortranExpr.Proofs.Analysis.ConstantSpecification
import FortranExpr.Proofs.Scope

namespace FortranExpr

/-- `LosesLocals l l'`: the list `l'` is `l` with some references to local names left out. -/
inductive LosesLocals : List SpecificationProblem → List SpecificationProblem → Prop
  | nil : LosesLocals [] []
  | keep (p : SpecificationProblem) {l l' : List SpecificationProblem} : LosesLocals l l' →
      LosesLocals (p :: l) (p :: l')
  | lose (name : String) {l l' : List SpecificationProblem} : LosesLocals l l' →
      LosesLocals (.localEntity name :: l) l'

namespace LosesLocals

variable {α : Type} {l l' m m' : List SpecificationProblem}

theorem refl (l : List SpecificationProblem) : LosesLocals l l := by
  induction l with
  | nil => exact .nil
  | cons p rest ih => exact .keep p ih

theorem append (h : LosesLocals l l') (hm : LosesLocals m m') :
    LosesLocals (l ++ m) (l' ++ m') := by
  induction h with
  | nil => exact hm
  | keep p _ ih => exact .keep p ih
  | lose name _ ih => exact .lose name ih

theorem flatMap {f g : α → List SpecificationProblem} {items : List α}
    (h : ∀ a ∈ items, LosesLocals (f a) (g a)) :
    LosesLocals (items.flatMap f) (items.flatMap g) := by
  induction items with
  | nil => exact .nil
  | cons a rest ih =>
    obtain ⟨ha, hrest⟩ := List.forall_mem_cons.1 h
    rw [List.flatMap_cons, List.flatMap_cons]
    exact ha.append (ih hrest)

/-- The first problem is the same, or it was a local name that is left out. -/
theorem head? (h : LosesLocals l l') :
    l'.head? = l.head? ∨ ∃ name, l.head? = some (.localEntity name) := by
  cases h with
  | nil => exact .inl rfl
  | keep p _ => exact .inl rfl
  | lose name _ => exact .inr ⟨name, rfl⟩

theorem eq_nil (h : LosesLocals [] l') : l' = [] := by
  cases h
  rfl

end LosesLocals

variable {inner outer : Scope}

/-- **A reference** has the problem that it has outside, unless it is local no longer. -/
theorem Symbol.losesLocals (h : inner.hasAncestor outer = true) (s : Symbol) :
    LosesLocals (s.specificationProblem outer).toList (s.specificationProblem inner).toList := by
  cases hout : outer.hasAncestor s.owner with
  | true =>
    -- the name is known in both scopes
    have hin := Scope.hasAncestor_trans h hout
    have hsame : s.specificationProblem inner = s.specificationProblem outer := by
      rw [specificationProblem, specificationProblem, hin, hout]
    rw [hsame]
    exact .refl _
  | false =>
    cases hin : inner.hasAncestor s.owner with
    | false =>
      have hsame : s.specificationProblem inner = s.specificationProblem outer := by
        rw [specificationProblem, specificationProblem, hin, hout]
      rw [hsame]
      exact .refl _
    | true =>
      rw [specificationProblem, specificationProblem, hin, hout]
      split_ifs <;> simp_all [LosesLocals.refl]
      exact .lose _ .nil

namespace Item

/-- **The problems of an item** in an inner scope are those in the outer one, some local names
left out. -/
theorem losesLocals (h : inner.hasAncestor outer = true) (i : Item Symbol) :
    LosesLocals (i.problems outer) (i.problems inner) := by
  induction i using Item.induction with
  | step i ih =>
    cases hrule : Expr.specificationRule i with
    | answer r =>
      rw [problems_of_answer outer hrule, problems_of_answer inner hrule]
      exact .refl _
    | firstPart lead =>
      rw [(problems_of_firstPart outer hrule).2, (problems_of_firstPart inner hrule).2]
      exact .flatMap fun c hc => ih c (List.mem_of_mem_take hc)
    | laterParts lead =>
      rw [(problems_of_laterParts outer hrule).2, (problems_of_laterParts inner hrule).2]
      exact .flatMap fun c hc => ih c (List.mem_of_mem_drop hc)
    | usual =>
      cases hs : i.named? with
      | some s =>
        rw [problems_of_named outer hs, problems_of_named inner hs]
        exact s.losesLocals h
      | none =>
        rw [problems_of_usual outer hrule hs, problems_of_usual inner hrule hs]
        exact .flatMap ih

end Item

namespace Expr

/-- **What may stand in a specification of a scope** may stand in one of every scope inside
it.  If the check does not say the same in both, it names a local entity outside; and of all
problems inside, each is there outside in the same order, where only local names are added. -/
theorem specificationProblem?_inner (h : inner.hasAncestor outer = true) (e : Expr Symbol) :
    (e.specificationProblem? outer = none → e.specificationProblem? inner = none) ∧
      (e.specificationProblem? inner ≠ e.specificationProblem? outer →
        ∃ name, e.specificationProblem? outer = some (.localEntity name)) ∧
      LosesLocals (e.problems outer) (e.problems inner) := by
  have hloses : LosesLocals (e.problems outer) (e.problems inner) := (Item.expr e).losesLocals h
  have houter : e.specificationProblem? outer = (e.problems outer).head? :=
    visit_specification outer (.expr e)
  have hinner : e.specificationProblem? inner = (e.problems inner).head? :=
    visit_specification inner (.expr e)
  refine ⟨fun hnone => ?_, fun hne => ?_, hloses⟩
  · rw [houter, List.head?_eq_none_iff] at hnone
    rw [hnone] at hloses
    rw [hinner, hloses.eq_nil]
    rfl
  · rw [houter, hinner] at hne
    rw [houter]
    exact hloses.head?.resolve_left hne

/-- A block inside the subprogram. -/
def innerBlock : Scope := .child subprogram 3 .blockConstruct "b"

/-- The sum `x + o` of a variable of the subprogram and an OPTIONAL dummy argument. -/
def sumWithOptional : Expr Symbol :=
  .binary .add .integer (.entity (.symbol (scalar "x" subprogram)))
    (.entity (.symbol ⟨1, "o", subprogram,
      .object ⟨0, 0, .explicit, true, none, none⟩, [.optional]⟩))

/-- In the subprogram the sum is refused for the local `x`, and in the block for the OPTIONAL
argument, which is the second problem outside. -/
theorem specificationProblem?_sumWithOptional :
    innerBlock.hasAncestor subprogram = true ∧
      sumWithOptional.specificationProblem? subprogram = some (.localEntity "x") ∧
      sumWithOptional.specificationProblem? innerBlock = some (.optionalDummy "o") ∧
      ((sumWithOptional.specificationProblem? subprogram = none →
          sumWithOptional.specificationProblem? innerBlock = none) ∧
        (sumWithOptional.specificationProblem? innerBlock ≠
            sumWithOptional.specificationProblem? subprogram →
          ∃ name, sumWithOptional.specificationProblem? subprogram = some (.localEntity name)) ∧
        LosesLocals (sumWithOptional.problems subprogram)
          (sumWithOptional.problems innerBlock)) := by
  have hinner : innerBlock.hasAncestor subprogram = true := by decide
  exact ⟨hinner, by decide +kernel, by decide +kernel,
    specificationProblem?_inner hinner sumWithOptional⟩

end Expr
end FortranExpr
