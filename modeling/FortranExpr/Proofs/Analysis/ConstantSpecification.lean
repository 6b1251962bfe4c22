/-
# Constant expressions in a specification

A constant expression may stand in a specification of any scope, with three exceptions.
The check for constancy and the search for problems go by rules of their own, and on these
nodes the rules differ.

| node | constancy asks for | problems in a specification |
| --- | --- | --- |
| a name | a named constant, or the index of a loop | none of a named constant; an index may be local |
| a component | a constant object and a constant name | those of the object |
| a procedure by itself | what it asks of the name; nothing of an intrinsic | one |
| a call | one of `kind` | none of a call of `kind` |
| an inquiry about a type parameter | a kind parameter | those of the object |
| a read of a descriptor | a constant object | none |

`Expr.Exposes` says which items both checks come to, and `Expr.IsUnexceptional` that none of
the exceptions is among them: an index with a problem, a procedure by itself, and an inquiry
about an object with a problem.
-/

import FortranExpr.Proofs.Analysis.Constancy
import FortranExpr.Proofs.Analysis.Specification

namespace FortranExpr

namespace Expr

variable {σ : Type}

/-- `e.Exposes i`: both checks come to the item `i` of the expression `e` when they find
nothing on the way. -/
inductive Exposes (e : Expr σ) : Item σ → Prop
  | root : Exposes e (.expr e)
  | part {i c} : Exposes e i → i.IsOpen →
      (∀ base field dimension, i ≠ .expr (.descriptorInquiry base field dimension)) →
      i.Part c → Exposes e c

/-- Nothing that is constant and has a problem in a specification of `scope` is exposed. -/
structure IsUnexceptional (e : Expr Symbol) (scope : Scope) : Prop where
  procedure : ∀ proc, ¬e.Exposes (.expr (.designator proc))
  index : ∀ s, e.Exposes (.expr (.entity (.symbol s))) → s.isImpliedDoIndex = true →
    s.specificationProblem scope = none
  inquiry : ∀ parameter base, e.Exposes (.expr (.typeParamInquiry parameter (some base))) →
    (entity base).specificationProblem? scope = none

end Expr

namespace Item

variable {scope : Scope}

/-- Only three items hold a symbol as a part, and the search for problems treats none of
them like the others. -/
theorem Part.ne_symbol_of_usual {i c : Item Symbol} (h : i.Part c)
    (hrule : Expr.specificationRule i = .usual) (s : Symbol) : c ≠ .symbol s := by
  rintro rfl
  cases h <;> cases hrule

theorem problems_eq_nil_of_parts {i : Item Symbol} (hrule : Expr.specificationRule i = .usual)
    (hs : i.named? = none) (h : ∀ c, i.Part c → c.problems scope = []) :
    i.problems scope = [] := by
  rw [problems_of_usual scope hrule hs, List.flatMap_eq_nil_iff]
  intro c hc
  by_cases habsent : c = .absent
  · rw [habsent, problems_absent]
  · exact h c (part_iff.2 ⟨hc, habsent⟩)

end Item

namespace Symbol

/-- Of the symbols that are constant only the index of a loop may have a problem. -/
theorem specificationProblem_of_isKnown {scope : Scope} {s : Symbol} (h : s.IsKnown)
    (hindex : s.isImpliedDoIndex = true → s.specificationProblem scope = none) :
    s.specificationProblem scope = none := by
  have hconstant := isConstant_iff_isKnown.2 h
  rw [isConstant, Bool.or_eq_true] at hconstant
  rcases hconstant with hnamed | hloop
  · rw [specificationProblem, if_pos hnamed]
  · exact hindex hloop

end Symbol

namespace Expr

variable {e : Expr Symbol} {scope : Scope}

theorem problems_eq_nil_iff : e.problems scope = [] ↔ e.specificationProblem? scope = none := by
  rw [specificationProblem?, Pass.run, visit_specification, List.head?_eq_none_iff,
    Item.problems_expr]

/-- **What both checks come to has no problem when it is constant,** the symbols apart that
a component or a procedure is named by. -/
theorem problems_eq_nil_of_exposes (h : e.IsUnexceptional scope) (i : Item Symbol)
    (hi : e.Exposes i) (hs : ∀ s, i ≠ .symbol s) (hc : constancy.visit i = true) :
    i.problems scope = [] := by
  induction i using Item.induction with
  | step i ih =>
    obtain ⟨hadmitted, hparts⟩ := (visit_constancy_iff i).1 hc
    -- an item that the search treats like every other has only the problems of its parts
    have usual (hrule : specificationRule i = .usual) (hnamed : i.named? = none)
        (hopen : i.IsOpen) : i.problems scope = [] :=
      Item.problems_eq_nil_of_parts hrule hnamed fun c hpart =>
        ih c hpart.mem_children
          (.part hi hopen (by rintro _ _ _ rfl; cases hrule) hpart)
          (hpart.ne_symbol_of_usual hrule) (hparts hopen c hpart)
    cases i with
    | absent | subscript | triplet | impliedDo | param => exact usual rfl rfl trivial
    | symbol s => exact absurd rfl (hs s)
    | expr x =>
      cases x with
      | entity ref =>
        cases ref with
        | symbol s =>
          rw [Item.problems_of_named scope rfl,
            Symbol.specificationProblem_of_isKnown hadmitted (h.index s hi), Option.toList]
        | component base c =>
          -- the name of the component has to be constant, but is not asked for its problems
          rw [Item.problems_expr, problems, DataRef.problems, ← Item.problems_expr]
          have hbase : e.Exposes (.expr base) :=
            .part hi trivial (by rintro _ _ _ ⟨⟩) .componentBase
          exact ih _ Item.Part.componentBase.mem_children hbase (by rintro _ ⟨⟩)
            (hparts trivial _ .componentBase)
      | designator proc => exact absurd hi (h.procedure proc)
      | call proc args rank =>
        obtain rfl : proc = .intrinsic "kind" := hadmitted
        rw [Item.problems_expr, problems, if_pos (.inr rfl)]
      | coindexed => exact hadmitted.elim
      | typeParamInquiry parameter base =>
        cases base with
        | none => rw [Item.problems_expr, problems]
        | some base =>
          have hbase := problems_eq_nil_iff.2 (h.inquiry parameter base hi)
          rw [problems] at hbase
          rw [Item.problems_expr, problems]
          exact hbase
      | descriptorInquiry => rw [Item.problems_expr, problems]
      | _ => exact usual rfl rfl trivial

/-- **A constant expression may stand in a specification** of every scope in which it is
unexceptional: there the search finds no problem and the check says nothing. -/
theorem specificationProblem?_eq_none_of_isConstant (hc : e.isConstant = true)
    (h : e.IsUnexceptional scope) :
    e.specificationProblem? scope = none ∧
      ∀ name place, (⟨name, scope, e, place⟩ : Check).specificationDiagnostics = [] := by
  have hnone : e.specificationProblem? scope = none :=
    problems_eq_nil_iff.1
      (problems_eq_nil_of_exposes h (.expr e) .root (by rintro _ ⟨⟩) hc)
  refine ⟨hnone, fun name place => ?_⟩
  rw [Check.specificationDiagnostics, hnone]
  rfl

/-- The subprogram `f` of a module `m`. -/
def subprogram : Scope := .child (.child .global 0 .module "m") 1 .subprogram "f"

/-- A scalar variable without attributes. -/
def scalar (name : String) (owner : Scope) : Symbol :=
  ⟨0, name, owner, .object ⟨0, 0, .explicit, false, none, none⟩, []⟩

/-- The inquiry `object%k` about a kind parameter `k`. -/
def kindOf (object : Symbol) : Expr Symbol :=
  .typeParamInquiry ⟨1, "k", .child .global 2 .derivedType "t", .typeParam .kind, []⟩
    (some (.symbol object))

/-- The loop `(value, i = 1, upper)` in the subprogram. -/
def loopTo (upper value : Expr Symbol) : ImpliedDo Symbol :=
  ⟨scalar "i" (.child subprogram 3 .impliedDos ""), .constant ⟨.integer, [.integer 1], []⟩, upper,
    .empty, [.expr value]⟩

/-- A name `n` in the subprogram for a named constant of the module. -/
def aliasOfConstant : Symbol :=
  ⟨2, "n", subprogram, .use { scalar "n" (.child .global 0 .module "m") with
    attrs := [.parameter] }, []⟩

/-- The call `kind(x)` with a variable `x` of the subprogram. -/
def kindOfLocal : Expr Symbol :=
  .call (.intrinsic "kind") [.filled (.entity (.symbol (scalar "x" subprogram)))] 0

/-- The array constructor `[(n, i = 1, kind(x)), p%k]`, with a variable `p` of the module. -/
def loopAndInquiry : Expr Symbol :=
  .arrayConstructor .integer
    [.impliedDo (loopTo kindOfLocal (.entity (.symbol aliasOfConstant))),
      .expr (kindOf (scalar "p" (.child .global 0 .module "m")))]

theorem isUnexceptional_loopAndInquiry : loopAndInquiry.IsUnexceptional subprogram := by
  have hexposed {i : Item Symbol} (h : loopAndInquiry.Exposes i) :
      i = .expr loopAndInquiry ∨
        i = .impliedDo (loopTo kindOfLocal (.entity (.symbol aliasOfConstant))) ∨
        i = .expr (kindOf (scalar "p" (.child .global 0 .module "m"))) ∨
        i = .expr (.constant ⟨.integer, [.integer 1], []⟩) ∨ i = .expr kindOfLocal ∨
        i = .expr (.entity (.symbol aliasOfConstant)) := by
    induction h with
    | root => exact .inl rfl
    | part _ hopen _ hpart ih =>
      rcases ih with rfl | rfl | rfl | rfl | rfl | rfl
      · cases hpart with
        | arrayValue hmem =>
          obtain rfl := by simpa using hmem
          exact .inr (.inr (.inl rfl))
        | arrayLoop hmem =>
          obtain rfl := by simpa using hmem
          exact .inr (.inl rfl)
      · cases hpart with
        | loopLower => exact .inr (.inr (.inr (.inl rfl)))
        | loopUpper => exact .inr (.inr (.inr (.inr (.inl rfl))))
        | loopValue hmem =>
          obtain rfl := by simpa using hmem
          exact .inr (.inr (.inr (.inr (.inr rfl))))
        | innerLoop hmem => simp at hmem
      · exact hopen.elim
      · cases hpart
      · exact hopen.elim
      · cases hpart
  refine ⟨fun proc h => ?_, fun s h hindex => ?_, fun parameter base h => ?_⟩
  · rcases hexposed h with h | h | h | h | h | h <;> cases h
  · rcases hexposed h with h | h | h | h | h | h <;> cases h
    cases hindex
  · rcases hexposed h with h | h | h | h | h | h <;> cases h
    exact problems_eq_nil_iff.1 (by rw [problems, DataRef.problems]; rfl)

/-- The constructor `[(n, i = 1, kind(x)), p%k]` is constant and may stand in a specification
of the subprogram. -/
theorem specificationProblem?_loopAndInquiry :
    loopAndInquiry.isConstant = true ∧ loopAndInquiry.IsUnexceptional subprogram ∧
      loopAndInquiry.specificationProblem? subprogram = none ∧
      ∀ name place, (⟨name, subprogram, loopAndInquiry, place⟩ : Check).specificationDiagnostics =
        [] := by
  have hconstant : loopAndInquiry.isConstant = true := by decide +kernel
  exact ⟨hconstant, isUnexceptional_loopAndInquiry,
    specificationProblem?_eq_none_of_isConstant hconstant isUnexceptional_loopAndInquiry⟩

/-- The array constructor `[(i, i = 1, 2)]`. -/
def countToTwo : Expr Symbol :=
  .arrayConstructor .integer
    [.impliedDo (loopTo (.constant ⟨.integer, [.integer 2], []⟩)
      (.entity (.symbol (scalar "i" (.child subprogram 3 .impliedDos "")))))]

/-- **Three constant expressions that may not stand in a specification** of the subprogram:
the array constructor `[(i, i = 1, 2)]`, the inquiry `x%k` about a variable of its own, and
the intrinsic procedure `sin` by itself. -/
theorem specificationProblem?_of_isConstant_exceptions :
    (countToTwo.isConstant = true ∧
        countToTwo.specificationProblem? subprogram = some (.localEntity "i")) ∧
      ((kindOf (scalar "x" subprogram)).isConstant = true ∧
        (kindOf (scalar "x" subprogram)).specificationProblem? subprogram =
          some (.localEntity "x")) ∧
      ((designator (.intrinsic "sin") : Expr Symbol).isConstant = true ∧
        (designator (.intrinsic "sin") : Expr Symbol).specificationProblem? subprogram =
          some .dummyProcedure) := by
  decide +kernel

end Expr
end FortranExpr
