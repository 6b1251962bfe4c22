/-
# Entries that refer to earlier entries

In a list whose entries need only entries that stand before them (`EachAfter`), what holds of
an entry as soon as it holds of those it needs holds of every entry: nothing can need itself,
at however many removes.

A scope needs the scope around it, and a symbol the symbols that it is declared by: the one
it is an alias of, and those that its initial value mentions.
-/

import FortranExpr.Symbol
import FortranExpr.Proofs.Expr.Mention
import Mathlib.Logic.Relation

namespace FortranExpr

/-- Whatever an entry of the list needs stands before it. -/
def EachAfter {α : Type} (needs : α → α → Prop) (list : List α) : Prop :=
  ∀ (i : Nat) (a : α), list[i]? = some a → ∀ b, needs a b → ∃ j < i, list[j]? = some b

namespace EachAfter

variable {α : Type} {needs : α → α → Prop} {list : List α}

theorem nil : EachAfter needs [] := nofun

/-- An entry may be added at the end when all that it needs is there. -/
theorem concat (h : EachAfter needs list) {a : α} (ha : ∀ b, needs a b → b ∈ list) :
    EachAfter needs (list ++ [a]) := by
  intro i c hc b hb
  by_cases hi : i < list.length
  · rw [List.getElem?_append_left hi] at hc
    obtain ⟨j, hj, hjb⟩ := h i c hc b hb
    exact ⟨j, hj, (List.getElem?_append_left (Nat.lt_trans hj hi)).trans hjb⟩
  · rw [List.getElem?_append_right (Nat.le_of_not_lt hi)] at hc
    obtain rfl := List.mem_singleton.1 (List.mem_of_getElem? hc)
    obtain ⟨j, hj⟩ := List.getElem?_of_mem (ha b hb)
    have hlt := (List.getElem?_eq_some_iff.1 hj).1
    exact ⟨j, Nat.lt_of_lt_of_le hlt (Nat.le_of_not_lt hi),
      (List.getElem?_append_left hlt).trans hj⟩

/-- **Induction along the list:** what an entry needs comes before it. -/
theorem induction (h : EachAfter needs list) {motive : α → Prop}
    (step : ∀ a ∈ list, (∀ b, needs a b → motive b) → motive a) : ∀ a ∈ list, motive a := by
  have key (i : Nat) : ∀ a, list[i]? = some a → motive a := by
    induction i using Nat.strongRecOn with
    | ind i ih =>
      intro a ha
      refine step a (List.mem_of_getElem? ha) fun b hb => ?_
      obtain ⟨j, hj, hjb⟩ := h i a ha b hb
      exact ih j hj b hjb
  intro a ha
  obtain ⟨i, hi⟩ := List.getElem?_of_mem ha
  exact key i a hi

theorem mono (h : EachAfter needs list) {fewer : α → α → Prop}
    (hneeds : ∀ a b, fewer a b → needs a b) : EachAfter fewer list :=
  fun i a ha b hb => h i a ha b (hneeds a b hb)

/-- **From what an entry needs on to what that needs,** an entry is reached that needs
nothing. -/
theorem exists_end (h : EachAfter needs list) :
    ∀ a ∈ list, ∃ b ∈ list, Relation.ReflTransGen needs a b ∧ ∀ c, ¬ needs b c := by
  refine h.induction fun a ha ih => ?_
  by_cases hneeds : ∃ b, needs a b
  · obtain ⟨b, hb⟩ := hneeds
    obtain ⟨c, hc, hbc, hend⟩ := ih b hb
    exact ⟨c, hc, .head hb hbc, hend⟩
  · exact ⟨a, ha, .refl, not_exists.1 hneeds⟩

end EachAfter

namespace Details

variable {σ : Type}

/-- The symbol that an alias stands for. -/
def target? : Details σ → Option σ
  | use target | hostAssoc target => some target
  | _ => none

/-- Symbols that stand in a declaration: the target of an alias, and what is mentioned in an
initial value. -/
def RefersTo (d : Details σ) (s : σ) : Prop :=
  d.target? = some s ∨
    ∃ declared e, d = .object declared ∧ declared.init = some e ∧ e.Mentions s

end Details

namespace Symbol

/-- A symbol is an alias of another one. -/
def IsAliasOf (s t : Symbol) : Prop := s.details.target? = some t

theorem ultimate_of_isAliasOf {s t : Symbol} (h : s.IsAliasOf t) : s.ultimate = t.ultimate := by
  obtain ⟨serial, name, owner, details, attrs⟩ := s
  cases details with
  | use | hostAssoc =>
    obtain rfl := Option.some.inj h
    rw [ultimate]
  | _ => cases h

/-- **All along a chain of aliases,** the same symbol is denoted. -/
theorem ultimate_eq_of_reflTransGen {s t : Symbol}
    (h : Relation.ReflTransGen IsAliasOf s t) : s.ultimate = t.ultimate := by
  induction h with
  | refl => rfl
  | tail _ hstep ih => exact ih.trans (ultimate_of_isAliasOf hstep)

theorem ultimate_of_target?_eq_none {s : Symbol} (h : s.details.target? = none) :
    s.ultimate = s := by
  obtain ⟨serial, name, owner, details, attrs⟩ := s
  cases details with
  | use | hostAssoc => cases h
  | _ => rw [ultimate] <;> exact nofun

end Symbol
end FortranExpr
