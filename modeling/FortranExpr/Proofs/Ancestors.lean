/-
# The tree of the scopes that were made

Scopes are only made inside scopes that are there, so their parents are there (`parent_mem`) and
there are no more of them around a scope than were made (`depth_le`).

| a scope is made | scopes that were there | the new scope |
| --- | --- | --- |
| places | unchanged | after all of them |
| around it | the same scopes as before | its parent and what is around that |
| it is around | the same scopes as before | none that is there |

A scope is the same as another one only if it stands at the same place among those that were made,
also if both were made of one parent with the same kind and name.  So what is asked of two places
(`answer?`) has the same answer after further steps (`GrowsTo`).
-/

import FortranExpr.Proofs.Declarations
import FortranExpr.Proofs.Scope

namespace FortranExpr
namespace Declarations

variable {d d' : Declarations} {log : List Declaration} {parent s t : Scope} {kind : ScopeKind}
  {name : String}

/-! ### What is around the scopes that are there -/

theorem mem_scopes_makeChild : s ∈ (d.makeChild parent kind name).2.scopes ↔
    s ∈ d.scopes ∨ s = (d.makeChild parent kind name).1 := by
  show s ∈ d.scopes ++ [(d.makeChild parent kind name).1] ↔ _
  rw [List.mem_append, List.mem_singleton]

/-- **The parent of a scope that is there** is there. -/
theorem Reached.parent_mem (h : Reached d log) (hs : s ∈ d.scopes) (hst : s.LinksTo t) :
    t ∈ d.scopes := by
  induction h with
  | empty =>
    obtain rfl := List.mem_singleton.1 hs
    cases hst
  | makeChild before known kind name ih =>
    refine mem_scopes_makeChild.2 (.inl ?_)
    rcases mem_scopes_makeChild.1 hs with hs | rfl
    · exact ih hs
    · cases hst
      exact known
  | declare before known name details attrs ih => exact ih hs

/-- **Around a scope that is there** are scopes that are there. -/
theorem Reached.ancestor_mem (h : Reached d log) (hs : s ∈ d.scopes)
    (hst : s.hasAncestor t = true) : t ∈ d.scopes := by
  induction Scope.hasAncestor_iff_transGen.1 hst with
  | single hlink => exact h.parent_mem hs hlink
  | tail hpath hlink ih => exact h.parent_mem (ih (Scope.hasAncestor_iff_transGen.2 hpath)) hlink

theorem Reached.depth_le (h : Reached d log) (hs : s ∈ d.scopes) : s.depth ≤ d.made.length := by
  induction h generalizing s with
  | empty =>
    obtain rfl := List.mem_singleton.1 hs
    exact Nat.le_refl 0
  | @makeChild d log parent before known kind name ih =>
    have hlength : (d.makeChild parent kind name).2.made.length = d.made.length + 1 :=
      List.length_append
    rw [hlength]
    rcases mem_scopes_makeChild.1 hs with hs | rfl
    · exact Nat.le_succ_of_le (ih hs)
    · exact Nat.succ_le_succ (ih known)
  | declare before known name details attrs ih => exact ih hs

/-- **A new scope** is around no scope that is there. -/
theorem Reached.hasAncestor_new (h : Reached d log) (hs : s ∈ d.scopes) :
    s.hasAncestor (d.makeChild parent kind name).1 = false :=
  Bool.eq_false_iff.2 fun hnew => h.makeChild_fresh parent kind name (h.ancestor_mem hs hnew)

/-! ### Further steps -/

/-- What is there after further scopes are made and further symbols declared. -/
inductive GrowsTo (d : Declarations) : Declarations → Prop where
  | refl : GrowsTo d d
  | makeChild {d' : Declarations} {parent : Scope} (before : GrowsTo d d')
      (known : parent ∈ d'.scopes) (kind : ScopeKind) (name : String) :
      GrowsTo d (d'.makeChild parent kind name).2
  | declare {d' : Declarations} {scope : Scope} (before : GrowsTo d d')
      (known : scope ∈ d'.scopes) (name : String) (details : Details Symbol)
      (attrs : List Attr) : GrowsTo d (d'.declare scope name details attrs).2

/-- Whether the scope at the first place has the one at the second place around it; places are
counted from the global scope on. -/
def answer? (d : Declarations) (i j : Nat) : Option Bool := do
  let s ← d.scopes[i]?
  let t ← d.scopes[j]?
  return s.hasAncestor t

/-- Scopes keep their places. -/
theorem GrowsTo.isPrefix (h : GrowsTo d d') : d.scopes <+: d'.scopes := by
  induction h with
  | refl => exact List.prefix_refl _
  | makeChild before known kind name ih => exact ih.trans (List.prefix_append _ _)
  | declare before known name details attrs ih => exact ih

theorem GrowsTo.getElem?_eq (h : GrowsTo d d') {i : Nat} (hi : d.scopes[i]? = some s) :
    d'.scopes[i]? = some s := by
  obtain ⟨later, hlater⟩ := h.isPrefix
  obtain ⟨hlt, -⟩ := List.getElem?_eq_some_iff.1 hi
  rw [← hlater, List.getElem?_append_left hlt, hi]

/-- **An answer stays** as it was. -/
theorem GrowsTo.answer?_eq (h : GrowsTo d d') {i j : Nat} {answer : Bool}
    (hanswer : d.answer? i j = some answer) : d'.answer? i j = some answer := by
  obtain ⟨s, hs, hrest⟩ := Option.bind_eq_some_iff.1 hanswer
  obtain ⟨t, ht, hst⟩ := Option.bind_eq_some_iff.1 hrest
  rw [answer?, h.getElem?_eq hs, h.getElem?_eq ht]
  exact hst

/-! ### The order of the tree -/

/-- What the ancestor test says of the scopes that are there. -/
structure AncestorOrder (d : Declarations) : Prop where
  /-- Scopes are told apart by their places, whatever their kinds and names. -/
  distinct : d.scopes.Nodup
  /-- The search ends, after no more turns than there are scopes beside the global one. -/
  ends : ∀ s ∈ d.scopes, ∀ t, ∃ turns ≤ d.made.length,
    Scope.LooksFor t turns s.parent? (s.hasAncestor t)
  /-- However the search ends, it has this answer. -/
  unique : ∀ s ∈ d.scopes, ∀ t turns answer,
    Scope.LooksFor t turns s.parent? answer → answer = s.hasAncestor t
  /-- It finds the scopes that one or more parent links lead to, by way of scopes that are
  there. -/
  links : ∀ s ∈ d.scopes, ∀ t, s.hasAncestor t = true ↔
    Relation.TransGen (fun s p => p ∈ d.scopes ∧ s.LinksTo p) s t
  irrefl : ∀ s ∈ d.scopes, s.hasAncestor s = false
  asymm : ∀ s ∈ d.scopes, ∀ t ∈ d.scopes, s.hasAncestor t = true → t.hasAncestor s = false
  trans : ∀ s ∈ d.scopes, ∀ t ∈ d.scopes, ∀ u ∈ d.scopes,
    s.hasAncestor t = true → t.hasAncestor u = true → s.hasAncestor u = true
  /-- The global scope is around every other scope, and no scope is around it. -/
  root : ∀ s ∈ d.scopes, (s ≠ .global → s.hasAncestor .global = true) ∧
    Scope.global.hasAncestor s = false
  /-- Of two scopes around one scope, one is around the other. -/
  chain : ∀ s ∈ d.scopes, ∀ t ∈ d.scopes, ∀ u ∈ d.scopes,
    s.hasAncestor t = true → s.hasAncestor u = true →
      t = u ∨ t.hasAncestor u = true ∨ u.hasAncestor t = true
  /-- Further steps change no answer. -/
  stable : ∀ d', d.GrowsTo d' → ∀ i j answer, d.answer? i j = some answer →
    d'.answer? i j = some answer
  /-- A new scope is around no scope that is there; around it are its parent and what is around
  its parent. -/
  new : ∀ parent ∈ d.scopes, ∀ kind name, ∀ s ∈ d.scopes,
    s.hasAncestor (d.makeChild parent kind name).1 = false ∧
      ((d.makeChild parent kind name).1.hasAncestor s = true ↔
        s = parent ∨ parent.hasAncestor s = true)

/-- Parent links from a scope that is there lead by way of scopes that are there. -/
theorem Reached.links (h : Reached d log) (hs : s ∈ d.scopes) : s.hasAncestor t = true ↔
    Relation.TransGen (fun s p => p ∈ d.scopes ∧ s.LinksTo p) s t := by
  rw [Scope.hasAncestor_iff_transGen]
  constructor
  · intro hpath
    induction hpath with
    | single hlink => exact .single ⟨h.parent_mem hs hlink, hlink⟩
    | tail hpath hlink ih =>
      have hmem := h.ancestor_mem hs (Scope.hasAncestor_iff_transGen.2 hpath)
      exact ih.tail ⟨h.parent_mem hmem hlink, hlink⟩
  · exact fun hpath => hpath.lift id fun _ _ hlink => hlink.2

/-- **The ancestor test is the strict order of the scope tree,** in every state that is reached
from the global scope. -/
theorem Reached.ancestorOrder (h : d.Reached log) : d.AncestorOrder where
  distinct := h.records.scopes
  ends s hs t := by
    obtain ⟨turns, hturns, hsearch⟩ := s.exists_looksFor t
    exact ⟨turns, Nat.le_trans hturns (h.depth_le hs), hsearch⟩
  unique s _ t turns answer hsearch := by
    obtain ⟨_, -, hends⟩ := s.exists_looksFor t
    exact (hsearch.unique hends).2
  links s hs t := h.links hs
  irrefl s _ := s.hasAncestor_self
  asymm _ _ _ _ hst := Scope.hasAncestor_asymm hst
  trans _ _ _ _ _ _ hst htu := Scope.hasAncestor_trans hst htu
  root s _ := ⟨Scope.hasAncestor_global, rfl⟩
  chain _ _ _ _ _ _ ht hu := Scope.hasAncestor_or_hasAncestor ht hu
  stable _ hgrows _ _ _ hanswer := hgrows.answer?_eq hanswer
  new _ _ _ _ _ hs := ⟨h.hasAncestor_new hs, Scope.hasAncestor_child⟩

/-- Two subprograms of one name, and a block in the first one. -/
def alike : Declarations :=
  let first := empty.makeChild .global .subprogram "s"
  let second := first.2.makeChild .global .subprogram "s"
  (second.2.makeChild first.1 .blockConstruct "s").2

/-- The block is in the first subprogram and not in the second one, which is made alike. -/
theorem ancestorOrder_alike : alike.Reached [] ∧ alike.answer? 3 1 = some true ∧
    alike.answer? 3 2 = some false ∧ alike.AncestorOrder := by
  have hreached : alike.Reached [] := by
    refine .makeChild (.makeChild (.makeChild .empty ?_ _ _) ?_ _ _) ?_ _ _ <;> decide
  exact ⟨hreached, by decide, by decide, hreached.ancestorOrder⟩

end Declarations
end FortranExpr
