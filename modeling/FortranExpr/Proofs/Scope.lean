/-
# The scopes around a scope

The ancestor test looks for a scope among those around another one: first its parent, then the
parent of that, and so on past the global scope.

| the search stands | it |
| --- | --- |
| past the global scope | ends, the scope is not found |
| at the scope that is looked for | ends, the scope is found |
| at another scope | goes on at the parent of that one |

`LooksFor` is the search by itself, without a bound; a scope is as deep as there are scopes around
it (`depth`), and no search from it needs more turns.  What it finds is what parent links lead to
(`hasAncestor_iff_transGen`), and this is a strict order, under which the scopes around any one
scope are a chain (`hasAncestor_or_hasAncestor`).
-/

import FortranExpr.Scope
import Mathlib.Logic.Relation

namespace FortranExpr
namespace Scope

variable {s t u : Scope}

/-! ### One link -/

/-- A parent link: `t` is the scope just around `s`. -/
def LinksTo (s t : Scope) : Prop := s.parent? = some t

/-- The number of scopes around a scope. -/
def depth : Scope → Nat
  | global => 0
  | child parent _ _ _ => parent.depth + 1

theorem hasAncestor_child {parent : Scope} {serial : Nat} {kind : ScopeKind} {name : String} :
    (child parent serial kind name).hasAncestor t = true ↔
      t = parent ∨ parent.hasAncestor t = true := by
  rw [hasAncestor, Bool.or_eq_true, decide_eq_true_iff, eq_comm]

/-! ### The search -/

/-- From a scope on, or from past the global one, the search for `t` ends after this number of
turns with this answer. -/
inductive LooksFor (t : Scope) : (turns : Nat) → Option Scope → (answer : Bool) → Prop where
  | past : LooksFor t 0 none false
  | found : LooksFor t 1 (some t) true
  | on {turns : Nat} {s : Scope} {answer : Bool} (other : s ≠ t)
      (rest : LooksFor t turns s.parent? answer) : LooksFor t (turns + 1) (some s) answer

/-- **The search ends,** and no later than past the global scope. -/
theorem exists_looksFor (s t : Scope) :
    ∃ turns ≤ s.depth, LooksFor t turns s.parent? (s.hasAncestor t) := by
  induction s with
  | global => exact ⟨0, Nat.le_refl 0, .past⟩
  | child parent serial kind name ih =>
    by_cases heq : parent = t
    · subst heq
      have hanswer : (child parent serial kind name).hasAncestor parent = true :=
        hasAncestor_child.2 (.inl rfl)
      rw [hanswer]
      exact ⟨1, Nat.succ_le_succ (Nat.zero_le _), .found⟩
    · obtain ⟨turns, hturns, hsearch⟩ := ih
      have hanswer : (child parent serial kind name).hasAncestor t = parent.hasAncestor t := by
        rw [hasAncestor, decide_eq_false heq, Bool.false_or]
      rw [hanswer]
      exact ⟨turns + 1, Nat.succ_le_succ hturns, .on heq hsearch⟩

/-- **The search has one answer,** after one number of turns. -/
theorem LooksFor.unique {start : Option Scope} {turns turns' : Nat} {answer answer' : Bool}
    (h : LooksFor t turns start answer) (h' : LooksFor t turns' start answer') :
    turns = turns' ∧ answer = answer' := by
  induction h generalizing turns' answer' with
  | past =>
    cases h'
    exact ⟨rfl, rfl⟩
  | found =>
    cases h' with
    | found => exact ⟨rfl, rfl⟩
    | on other rest => exact absurd rfl other
  | on other rest ih =>
    cases h' with
    | found => exact absurd rfl other
    | on other' rest' =>
      obtain ⟨hturns, hanswer⟩ := ih rest'
      exact ⟨congrArg Nat.succ hturns, hanswer⟩

/-! ### The order -/

/-- **The scopes that are found** are those that one or more parent links lead to. -/
theorem hasAncestor_iff_transGen :
    s.hasAncestor t = true ↔ Relation.TransGen LinksTo s t := by
  induction s with
  | global =>
    refine ⟨nofun, fun h => ?_⟩
    obtain ⟨_, hparent, -⟩ := Relation.TransGen.head'_iff.1 h
    cases hparent
  | child parent serial kind name ih =>
    rw [hasAncestor_child, ih, ← Relation.reflTransGen_iff_eq_or_transGen]
    constructor
    · exact fun h => .head' rfl h
    · intro h
      obtain ⟨_, hparent, hrest⟩ := Relation.TransGen.head'_iff.1 h
      cases hparent
      exact hrest

/-- A scope around a scope around `s` is a scope around `s`. -/
theorem hasAncestor_trans (hst : s.hasAncestor t = true) (htu : t.hasAncestor u = true) :
    s.hasAncestor u = true :=
  hasAncestor_iff_transGen.2
    ((hasAncestor_iff_transGen.1 hst).trans (hasAncestor_iff_transGen.1 htu))

theorem depth_lt_of_hasAncestor (h : s.hasAncestor t = true) : t.depth < s.depth := by
  induction s with
  | global => cases h
  | child parent serial kind name ih =>
    rcases hasAncestor_child.1 h with rfl | h
    · exact Nat.lt_succ_self _
    · exact Nat.lt_succ_of_lt (ih h)

theorem hasAncestor_self (s : Scope) : s.hasAncestor s = false :=
  Bool.eq_false_iff.2 fun h => Nat.lt_irrefl _ (depth_lt_of_hasAncestor h)

theorem hasAncestor_asymm (h : s.hasAncestor t = true) : t.hasAncestor s = false :=
  Bool.eq_false_iff.2 fun h' =>
    Nat.lt_asymm (depth_lt_of_hasAncestor h) (depth_lt_of_hasAncestor h')

/-- The global scope is around every other one. -/
theorem hasAncestor_global (h : s ≠ global) : s.hasAncestor global = true := by
  induction s with
  | global => exact absurd rfl h
  | child parent serial kind name ih =>
    by_cases hparent : parent = global
    · exact hasAncestor_child.2 (.inl hparent.symm)
    · exact hasAncestor_child.2 (.inr (ih hparent))

/-- **The scopes around one scope are a chain:** of two of them, one is around the other. -/
theorem hasAncestor_or_hasAncestor (ht : s.hasAncestor t = true) (hu : s.hasAncestor u = true) :
    t = u ∨ t.hasAncestor u = true ∨ u.hasAncestor t = true := by
  induction s with
  | global => cases ht
  | child parent serial kind name ih =>
    rcases hasAncestor_child.1 ht with rfl | ht <;> rcases hasAncestor_child.1 hu with rfl | hu
    · exact .inl rfl
    · exact .inr (.inl hu)
    · exact .inr (.inr ht)
    · exact ih ht hu

end Scope
end FortranExpr
