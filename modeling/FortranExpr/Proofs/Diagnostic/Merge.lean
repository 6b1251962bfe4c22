/-
# When a merge ends

A merge looks at its source anew at every turn, and each turn adds one diagnostic to the
receiver.

| the source is | the merge | the receiver then holds |
| --- | --- | --- |
| another collector | ends after a turn for each diagnostic of the source | its list and that of the source |
| the receiver itself, and holds nothing | ends without a turn | nothing |
| the receiver itself, and holds something | never ends | |

`MergesIn` is the loop by itself; `mergeFrom?` is the loop with a bound on its turns
(`mergeFrom?_eq_some_iff`).  In the last row a turn moves the position and the end of the list on
together, so the position never comes to the end (`not_mergesIn_itself`).  Lists are as long as
they need to be: no turn fails for want of space.
-/

import FortranExpr.Proofs.Diagnostic.Session

namespace FortranExpr
namespace CollectorStore

/-- From position `i` of the source on, the merge of `source` into `receiver` ends after this
number of turns, and leaves the store `after`. -/
inductive MergesIn (receiver source : String) :
    (turns i : Nat) → (store after : CollectorStore) → Prop where
  | done {i : Nat} {store : CollectorStore}
      (atEnd : (store.get source).diagnostics[i]? = none) :
      MergesIn receiver source 0 i store store
  | turn {turns i : Nat} {store after : CollectorStore} {d : Diagnostic}
      (next : (store.get source).diagnostics[i]? = some d)
      (rest : MergesIn receiver source turns (i + 1) (store.add receiver d) after) :
      MergesIn receiver source (turns + 1) i store after

variable {receiver source : String} {turns bound i : Nat} {store after : CollectorStore}

/-! ### The loop and the loop with a bound -/

theorem MergesIn.mergeFrom?_eq (h : MergesIn receiver source turns i store after)
    (hbound : turns ≤ bound) : mergeFrom? receiver source bound i store = some after := by
  induction h generalizing bound with
  | done atEnd =>
    unfold mergeFrom?
    rw [atEnd]
  | turn next rest ih =>
    obtain ⟨bound, rfl⟩ := Nat.exists_eq_add_one.2 (Nat.lt_of_lt_of_le (Nat.succ_pos _) hbound)
    unfold mergeFrom?
    rw [next]
    exact ih (Nat.le_of_succ_le_succ hbound)

theorem exists_mergesIn_of_mergeFrom? (h : mergeFrom? receiver source bound i store = some after) :
    ∃ turns ≤ bound, MergesIn receiver source turns i store after := by
  induction bound generalizing i store with
  | zero =>
    unfold mergeFrom? at h
    split at h
    · cases h
      exact ⟨0, Nat.le_refl 0, .done ‹_›⟩
    · cases h
    · cases ‹0 = _ + 1›
  | succ bound ih =>
    unfold mergeFrom? at h
    split at h
    · cases h
      exact ⟨0, Nat.zero_le _, .done ‹_›⟩
    · cases ‹bound + 1 = 0›
    · rename_i d _ hd hbound
      obtain rfl := Nat.succ.inj hbound
      obtain ⟨turns, hturns, rest⟩ := ih h
      exact ⟨turns + 1, Nat.succ_le_succ hturns, .turn hd rest⟩

/-- **A bound on the turns** is all that `mergeFrom?` adds to the loop. -/
theorem mergeFrom?_eq_some_iff : mergeFrom? receiver source bound i store = some after ↔
    ∃ turns ≤ bound, MergesIn receiver source turns i store after :=
  ⟨exists_mergesIn_of_mergeFrom?, fun ⟨_, hbound, h⟩ => h.mergeFrom?_eq hbound⟩

/-! ### Another collector -/

/-- Another collector stays as it is, so there is a turn for each of its diagnostics from the
position on. -/
theorem MergesIn.length_eq (different : receiver ≠ source)
    (h : MergesIn receiver source turns i store after)
    (hi : i ≤ (store.get source).diagnostics.length) :
    i + turns = (store.get source).diagnostics.length := by
  induction h with
  | done atEnd => exact Nat.le_antisymm hi (List.getElem?_eq_none_iff.1 atEnd)
  | @turn turns i store after d next rest ih =>
    have hsource : (store.add receiver d).get source = store.get source := by
      rw [add, get_set, if_neg different]
    obtain ⟨hlt, -⟩ := List.getElem?_eq_some_iff.1 next
    rw [hsource] at ih
    have hrest : i + 1 + turns = (store.get source).diagnostics.length := ih hlt
    omega

/-! ### The collector itself -/

/-- **A collector that holds something is never merged into itself:** a position before the end
of its list is before the end after each turn. -/
theorem not_mergesIn_itself {name : String} (hi : i < (store.get name).diagnostics.length) :
    ¬MergesIn name name turns i store after := by
  intro h
  induction turns generalizing i store with
  | zero =>
    cases h with
    | done atEnd => exact Nat.not_le_of_lt hi (List.getElem?_eq_none_iff.1 atEnd)
  | succ turns ih =>
    cases h with
    | @turn _ _ _ _ d next rest =>
      have hgrown : ((store.add name d).get name).diagnostics =
          (store.get name).diagnostics ++ [d] := by
        rw [add, get_set, if_pos rfl, Collector.add]
      refine ih ?_ rest
      rw [hgrown, List.length_append, List.length_singleton]
      exact Nat.succ_lt_succ hi

/-! ### Merges that end -/

/-- The store after a merge that ends. -/
def merged (store : CollectorStore) (receiver source : String) : CollectorStore :=
  (store.get source).diagnostics.foldl (fun store d => store.add receiver d) store

theorem mergesIn_iff_of_ne (different : receiver ≠ source) :
    MergesIn receiver source turns 0 store after ↔
      turns = (store.get source).size ∧ after = store.merged receiver source := by
  have hmerge : mergeFrom? receiver source (store.get source).size 0 store =
      some (store.merged receiver source) := merge?_eq_some different store
  have hturns {turns : Nat} {after : CollectorStore}
      (h : MergesIn receiver source turns 0 store after) : turns = (store.get source).size := by
    have hlength := h.length_eq different (Nat.zero_le _)
    rwa [Nat.zero_add] at hlength
  constructor
  · intro h
    refine ⟨hturns h, ?_⟩
    exact Option.some.inj ((h.mergeFrom?_eq (Nat.le_of_eq (hturns h))).symm.trans hmerge)
  · rintro ⟨rfl, rfl⟩
    obtain ⟨turns, -, h⟩ := exists_mergesIn_of_mergeFrom? hmerge
    exact hturns h ▸ h

theorem mergesIn_itself_iff {name : String} : MergesIn name name turns 0 store after ↔
    (store.get name).diagnostics = [] ∧ turns = 0 ∧ after = store := by
  constructor
  · intro h
    have hempty : (store.get name).diagnostics = [] :=
      List.length_eq_zero_iff.1
        (Nat.eq_zero_of_not_pos fun hpos => not_mergesIn_itself hpos h)
    cases h with
    | done => exact ⟨hempty, rfl, rfl⟩
    | turn next =>
      rw [hempty] at next
      cases next
  · rintro ⟨hempty, rfl, rfl⟩
    exact .done (by rw [hempty]; rfl)

/-- **Exactly these merges end,** after a turn for each diagnostic of the source. -/
theorem mergesIn_iff : MergesIn receiver source turns 0 store after ↔
    (receiver ≠ source ∨ (store.get source).diagnostics = []) ∧
      turns = (store.get source).size ∧ after = store.merged receiver source := by
  by_cases different : receiver = source
  · subst different
    rw [mergesIn_itself_iff, merged, Collector.size]
    constructor
    · rintro ⟨hempty, rfl, rfl⟩
      exact ⟨.inr hempty, by rw [hempty]; rfl, by rw [hempty]; rfl⟩
    · rintro ⟨hne | hempty, hturns, hafter⟩
      · exact absurd rfl hne
      · rw [hempty] at hturns hafter
        exact ⟨hempty, hturns, hafter⟩
  · rw [mergesIn_iff_of_ne different]
    exact ⟨fun h => ⟨.inl different, h⟩, fun h => h.2⟩

/-- **Merges end exactly where the source is another collector or holds nothing,** and then they
append a copy of its list: the loop ends after a turn for each diagnostic that the source held,
`merge?` gives the store that it leaves, the receiver holds its old list followed by the old list
of the source, and every other collector is what it was.  A collector that holds something is
never merged into itself, however many turns are allowed. -/
theorem merge_ends_iff (store : CollectorStore) (receiver source : String) :
    ((∃ turns after, MergesIn receiver source turns 0 store after) ↔
      receiver ≠ source ∨ (store.get source).diagnostics = []) ∧
    (∀ after, store.merge? receiver source = some after ↔
      ∃ turns, MergesIn receiver source turns 0 store after) ∧
    ∀ turns after, MergesIn receiver source turns 0 store after →
      turns = (store.get source).size ∧
      (after.get receiver).diagnostics =
        (store.get receiver).diagnostics ++ (store.get source).diagnostics ∧
      ∀ name, name ≠ receiver → after.get name = store.get name := by
  refine ⟨⟨?_, ?_⟩, fun after => ⟨?_, ?_⟩, ?_⟩
  · rintro ⟨turns, after, h⟩
    exact (mergesIn_iff.1 h).1
  · exact fun h => ⟨_, _, mergesIn_iff.2 ⟨h, rfl, rfl⟩⟩
  · intro h
    obtain ⟨turns, -, hturns⟩ := exists_mergesIn_of_mergeFrom? h
    exact ⟨turns, hturns⟩
  · rintro ⟨turns, h⟩
    exact h.mergeFrom?_eq (Nat.le_of_eq (mergesIn_iff.1 h).2.1)
  · intro turns after h
    obtain ⟨-, hturns, rfl⟩ := mergesIn_iff.1 h
    refine ⟨hturns, ?_, fun name hne => ?_⟩
    · rw [merged, get_foldl_add, if_pos rfl, Collector.diagnostics_addAll]
    · rw [merged, get_foldl_add, if_neg (Ne.symm hne)]
      rfl

/-- A collector that holds one warning. -/
def oneWarning : CollectorStore := empty.add "a" { level := .warning, message := "w" }

/-- **The merge of one warning into itself** has no result, after any number of turns. -/
theorem merge_oneWarning_itself :
    (oneWarning.get "a").diagnostics = [{ level := .warning, message := "w" }] ∧
    oneWarning.merge? "a" "a" = none ∧
    ∀ turns after, ¬MergesIn "a" "a" turns 0 oneWarning after :=
  ⟨by decide, by decide, fun _ _ => not_mergesIn_itself (by decide)⟩

end CollectorStore
end FortranExpr
