/-
# The log of a walk that stops

`Item.events` is what a walk that never stops does: it visits every position once, in the
order of the source, and looks at the symbol wherever an item is a name.

A conjunction stops at the first symbol that is refused, and the search for a first answer
at the first symbol that has one.  What such a walk has done until then is the shortest
prefix of all events that ends with that symbol, and everything when there is none
(`IsCut`).  The break in each loop and the plain return of an item with a single part
come to the same: of a sequence of parts, the events after the first stop are left out
(`upToFirst_append`, `Pass.traced_visitAll`).
-/

import FortranExpr.Proofs.Traversal.Occurrence
import FortranExpr.Proofs.Traversal.Position
import FortranExpr.Symbol
import FortranExpr.Traversal.Trace
import Mathlib.Data.Set.Defs

namespace FortranExpr

variable {σ R α : Type}

/-! ### Everything that can happen -/

namespace Event

/-- The item visited. -/
def item? : Event σ → Option (Item σ)
  | visit i => some i
  | symbol _ => none

/-- The symbol looked at. -/
def symbol? : Event σ → Option σ
  | visit _ => none
  | symbol s => some s

end Event

namespace Item

/-- An item that only names a symbol has no parts. -/
theorem children_of_named {i : Item σ} {s : σ} (hs : i.named? = some s) : i.children = [] := by
  rcases named?_eq_some_iff.1 hs with rfl | rfl <;> rfl

/-- The events of a walk that never stops. -/
def events (i : Item σ) : List (Event σ) :=
  .visit i :: (i.named?.toList.map .symbol ++ i.children.attach.flatMap fun c => c.1.events)
termination_by sizeOf i
decreasing_by exact sizeOf_lt_of_mem_children c.2

/-- The events of an item in one equation. -/
theorem events_eq (i : Item σ) :
    i.events = .visit i :: (i.named?.toList.map .symbol ++ i.children.flatMap events) := by
  have hattach : i.children.flatMap events = i.children.attach.flatMap fun c => c.1.events := by
    conv_lhs => rw [← List.attach_map_subtype_val i.children, List.flatMap_map]
  rw [events, hattach]

/-- An item that only names a symbol is visited, and then the symbol. -/
theorem events_of_named {i : Item σ} {s : σ} (hs : i.named? = some s) :
    i.events = [.visit i, .symbol s] := by
  rw [events_eq, hs, children_of_named hs]
  rfl

/-- Any other item is visited before its parts. -/
theorem events_of_unnamed {i : Item σ} (hs : i.named? = none) :
    i.events = .visit i :: i.children.flatMap events := by
  rw [events_eq, hs]
  rfl

/-- **Every position is visited once,** in the order of the source. -/
theorem map_some_visited_events (i : Item σ) :
    (i.events.filterMap Event.item?).map some = i.paths.map i.at? := by
  induction i using Item.induction with
  | step i ih =>
    have hnames : (i.named?.toList.map (Event.symbol (σ := σ))).filterMap Event.item? = [] := by
      cases i.named? <;> rfl
    have hparts : (i.children.flatMap fun c => c.events.filterMap Event.item?).map some =
        i.children.flatMap fun c => c.paths.map c.at? := by
      rw [List.map_flatMap]
      exact List.flatMap_congr ih
    rw [events_eq, List.filterMap_cons, List.filterMap_append, hnames, List.nil_append,
      List.filterMap_flatMap, map_at?_paths]
    exact congrArg (some i :: ·) hparts

/-- The symbols looked at are the occurrences. -/
theorem filterMap_symbol?_events (i : Item σ) :
    i.events.filterMap Event.symbol? = i.occurrences := by
  induction i using Item.induction with
  | step i ih =>
    cases hs : i.named? with
    | some s =>
      rw [events_of_named hs, occurrences_of_named hs]
      rfl
    | none =>
      rw [events_of_unnamed hs, occurrences_of_unnamed hs, List.filterMap_cons_none rfl,
        List.filterMap_flatMap]
      exact List.flatMap_congr ih

end Item

/-! ### Up to the first stop -/

/-- A sequence up to its first element at which to stop. -/
def upToFirst (stop : α → Bool) : List α → List α
  | [] => []
  | x :: rest => if stop x then [x] else x :: upToFirst stop rest

/-- A stop in the first list hides the second. -/
theorem upToFirst_append (stop : α → Bool) (a b : List α) :
    upToFirst stop (a ++ b) =
      if a.any stop then upToFirst stop a else a ++ upToFirst stop b := by
  induction a with
  | nil => rfl
  | cons x rest ih =>
    rw [List.cons_append, upToFirst, upToFirst, List.any_cons, ih]
    cases stop x with
    | true => rfl
    | false =>
      rw [Bool.false_or, if_neg Bool.false_ne_true, if_neg Bool.false_ne_true]
      split <;> rfl

/-- A list without a stop is kept as a whole. -/
theorem upToFirst_of_any_eq_false {stop : α → Bool} {l : List α} (h : l.any stop = false) :
    upToFirst stop l = l := by
  induction l with
  | nil => rfl
  | cons x rest ih =>
    rw [List.any_cons, Bool.or_eq_false_iff] at h
    rw [upToFirst, h.1, ih h.2]
    rfl

/-- A sequence with a stop in it is cut right behind the first one. -/
theorem exists_upToFirst_eq {stop : α → Bool} {l : List α} (h : l.any stop = true) :
    ∃ before x after, l = before ++ x :: after ∧ before.any stop = false ∧ stop x = true ∧
      upToFirst stop l = before ++ [x] := by
  induction l with
  | nil => cases h
  | cons x rest ih =>
    cases hx : stop x with
    | true => exact ⟨[], x, rest, rfl, rfl, hx, by rw [upToFirst, hx]; rfl⟩
    | false =>
      rw [List.any_cons, hx, Bool.false_or] at h
      obtain ⟨before, y, after, rfl, hbefore, hy, hcut⟩ := ih h
      refine ⟨x :: before, y, after, rfl, ?_, hy, ?_⟩
      · rw [List.any_cons, hx, hbefore, Bool.or_false]
      · rw [upToFirst, hx, hcut]
        rfl

/-! ### The log of a pass -/

namespace Pass

/-- The pass leaves every item to the walk. -/
structure IsPlain (p : Pass σ R) : Prop where
  rule : ∀ i, p.rule i = .usual
  onVisit : ∀ i r, p.onVisit i r = r

/-- A combined result is decided as soon as one of its parts is. -/
structure IsPrompt (p : Pass σ R) : Prop where
  start : p.decided p.start = false
  combine : ∀ a b, p.decided (p.combine a b) = (p.decided a || p.decided b)

/-- The event decides the walk: a symbol is looked at, and its result is decided. -/
def stopsAt (p : Pass σ R) : Event σ → Bool
  | .visit _ => false
  | .symbol s => p.decided (p.symbol s)

/-- The log does not change the result. -/
theorem fst_traced_visitAll (p : Pass σ R) (f : α → R × List (Event σ))
    (acc : R × List (Event σ)) (l : List α) :
    (p.traced.visitAll f acc l).1 = p.visitAll (fun x => (f x).1) acc.1 l := by
  induction l generalizing acc with
  | nil => rfl
  | cons x rest ih =>
    rw [visitAll, visitAll, apply_ite Prod.fst, ih]
    rfl

/-- Keeping a log changes no result. -/
theorem fst_traced_visit (p : Pass σ R) (i : Item σ) : (p.traced.visit i).1 = p.visit i := by
  induction i using Item.induction with
  | step i ih =>
    have through (acc : R) {l : List (Item σ)} (hl : ∀ c ∈ l, c ∈ i.children) :
        (p.traced.visitAll p.traced.visit (acc, []) l).1 = p.visitAll p.visit acc l := by
      rw [fst_traced_visitAll]
      exact visitAll_congr p (fun c hc => ih c (hl c hc)) acc
    have hrule : p.traced.rule i = (p.rule i).map fun r => (r, []) := rfl
    rw [visit_eq, visit_eq, hrule]
    refine congrArg (p.onVisit i) ?_
    cases p.rule i with
    | answer r => rfl
    | firstPart lead => exact through lead fun c hc => List.mem_of_mem_take hc
    | laterParts lead => exact through lead fun c hc => List.mem_of_mem_drop hc
    | usual =>
      cases i.named? with
      | some s => rfl
      | none => exact through p.start fun c hc => hc

variable {p : Pass σ R}

theorem traced_visit_of_named (hp : p.IsPlain) {i : Item σ} {s : σ} (hs : i.named? = some s) :
    p.traced.visit i = (p.symbol s, [.visit i, .symbol s]) := by
  have hrule : p.traced.rule i = .usual := congrArg (Rule.map _) (hp.rule i)
  rw [visit_of_named p.traced hrule hs]
  exact Prod.ext (hp.onVisit i (p.symbol s)) rfl

theorem traced_visit_of_unnamed (hp : p.IsPlain) {i : Item σ} (hs : i.named? = none) :
    p.traced.visit i =
      ((p.traced.visitAll p.traced.visit (p.start, []) i.children).1,
        .visit i :: (p.traced.visitAll p.traced.visit (p.start, []) i.children).2) := by
  have hrule : p.traced.rule i = .usual := congrArg (Rule.map _) (hp.rule i)
  rw [visit_of_usual p.traced hrule hs]
  exact Prod.ext (hp.onVisit i _) rfl

/-- The log is cut behind the first event that decides, and the result is decided when there
is one. -/
structure IsCutAtStop (p : Pass σ R) (all : List (Event σ)) (r : R × List (Event σ)) : Prop where
  log : r.2 = upToFirst p.stopsAt all
  decided : p.decided r.1 = all.any p.stopsAt

/-- A loop that has not stopped yet goes on until the first part that does. -/
theorem isCutAtStop_visitAll (hp : p.IsPrompt) {f : α → R × List (Event σ)}
    {events : α → List (Event σ)} {l : List α} (h : ∀ x ∈ l, p.IsCutAtStop (events x) (f x))
    {before : List (Event σ)} {acc : R} (hacc : p.decided acc = false)
    (hbefore : before.any p.stopsAt = false) :
    p.IsCutAtStop (before ++ l.flatMap events) (p.traced.visitAll f (acc, before) l) := by
  induction l generalizing before acc with
  | nil =>
    rw [List.flatMap_nil, List.append_nil]
    exact ⟨(upToFirst_of_any_eq_false hbefore).symm, hacc.trans hbefore.symm⟩
  | cons x rest ih =>
    have hx := h x List.mem_cons_self
    have hrest : ∀ y ∈ rest, p.IsCutAtStop (events y) (f y) :=
      fun y hy => h y (List.mem_cons_of_mem x hy)
    have hdecided : p.decided (p.combine acc (f x).1) = (events x).any p.stopsAt := by
      rw [hp.combine, hacc, Bool.false_or, hx.decided]
    show p.IsCutAtStop _ (if p.decided (p.combine acc (f x).1) = true
      then (p.combine acc (f x).1, before ++ (f x).2)
      else p.traced.visitAll f (p.combine acc (f x).1, before ++ (f x).2) rest)
    rw [List.flatMap_cons, ← List.append_assoc]
    split
    · rename_i hstop
      rw [hdecided] at hstop
      constructor
      · rw [upToFirst_append, List.any_append, hstop, Bool.or_true, if_pos rfl, upToFirst_append,
          hbefore, if_neg Bool.false_ne_true, hx.log]
      · rw [List.any_append, List.any_append, hstop, Bool.or_true, Bool.true_or, hdecided, hstop]
    · rename_i hgo
      rw [Bool.not_eq_true] at hgo
      have hpart : (events x).any p.stopsAt = false := hdecided ▸ hgo
      rw [hx.log, upToFirst_of_any_eq_false hpart]
      refine ih hrest hgo ?_
      rw [List.any_append, hbefore, hpart, Bool.false_or]

/-- **The log of a walk** is that of the walk that never stops, cut behind the first event
that decides. -/
theorem isCutAtStop_visit (hplain : p.IsPlain) (hp : p.IsPrompt) (i : Item σ) :
    p.IsCutAtStop i.events (p.traced.visit i) := by
  induction i using Item.induction with
  | step i ih =>
    cases hs : i.named? with
    | some s =>
      rw [traced_visit_of_named hplain hs, Item.events_of_named hs]
      constructor
      · show [.visit i, .symbol s] = .visit i :: upToFirst p.stopsAt [.symbol s]
        rw [upToFirst]
        split <;> rfl
      · exact (Bool.or_false _).symm
    | none =>
      have hparts : p.IsCutAtStop ([] ++ i.children.flatMap Item.events)
          (p.traced.visitAll p.traced.visit (p.start, []) i.children) :=
        isCutAtStop_visitAll hp ih hp.start rfl
      rw [List.nil_append] at hparts
      rw [traced_visit_of_unnamed hplain hs, Item.events_of_unnamed hs]
      exact ⟨congrArg (.visit i :: ·) hparts.log, hparts.decided⟩

/-- A pass that is never decided logs all events. -/
theorem snd_traced_visit_of_undecided (hplain : p.IsPlain) (hp : ∀ r, p.decided r = false)
    (i : Item σ) : (p.traced.visit i).2 = i.events := by
  have hprompt : p.IsPrompt := ⟨hp p.start, fun a b => by rw [hp, hp, hp]; rfl⟩
  have hnever : i.events.any p.stopsAt = false := by
    rw [List.any_eq_false]
    intro ev _
    cases ev with
    | visit j => exact Bool.false_ne_true
    | symbol s => exact ne_true_of_eq_false (hp (p.symbol s))
  rw [(isCutAtStop_visit hplain hprompt i).log, upToFirst_of_any_eq_false hnever]

end Pass

/-! ### Stop names -/

section StopNames

variable (stops : Set String)

/-- The event `=n` of a name `n` at which to stop. -/
def Event.isStop [DecidablePred (· ∈ stops)] : Event Symbol → Bool
  | visit _ => false
  | symbol s => decide (s.name ∈ stops)

/-- The last event of the log is `=n`, and one stops at `n`. -/
def EndsAtStop (log : List (Event Symbol)) (n : String) : Prop :=
  n ∈ stops ∧ ∃ before s, log = before ++ [.symbol s] ∧ s.name = n

/-- `log` is the shortest prefix of `all` that ends at a stop, and `n` is the name there. -/
structure IsCut (all log : List (Event Symbol)) (n : String) : Prop where
  isPrefix : log <+: all
  ends : EndsAtStop stops log n
  shortest : ∀ l m, l <+: all → EndsAtStop stops l m → log.length ≤ l.length

variable {stops} [DecidablePred (· ∈ stops)]

/-- A log that ends at a stop holds one. -/
theorem EndsAtStop.exists_isStop {log : List (Event Symbol)} {n : String}
    (h : EndsAtStop stops log n) : ∃ ev ∈ log, ev.isStop stops = true := by
  obtain ⟨hn, before, s, rfl, rfl⟩ := h
  exact ⟨.symbol s, List.mem_append_right _ List.mem_cons_self, decide_eq_true hn⟩

/-- Only a symbol can be a stop. -/
theorem Event.exists_symbol_of_isStop {ev : Event Symbol} (h : ev.isStop stops = true) :
    ∃ s, ev = .symbol s ∧ s.name ∈ stops := by
  cases ev with
  | visit i => cases h
  | symbol s => exact ⟨s, rfl, of_decide_eq_true h⟩

/-- What is cut behind its first stop is the shortest prefix that ends at a stop. -/
theorem isCut_of_split {before after : List (Event Symbol)} {s : Symbol}
    (hbefore : before.any (Event.isStop stops) = false) (hs : s.name ∈ stops) :
    IsCut stops (before ++ .symbol s :: after) (before ++ [.symbol s]) s.name where
  isPrefix := ⟨after, by rw [List.append_assoc, List.singleton_append]⟩
  ends := ⟨hs, before, s, rfl, rfl⟩
  shortest l m hl hend := by
    by_contra hlt
    -- a shorter prefix lies before the first stop
    have hle : l.length ≤ before.length := by
      rw [List.length_append, List.length_singleton] at hlt
      omega
    have hpre : l <+: before := List.prefix_of_prefix_length_le hl ⟨_, rfl⟩ hle
    obtain ⟨ev, hev, hstop⟩ := hend.exists_isStop
    rw [List.any_eq_false] at hbefore
    exact hbefore ev (hpre.subset hev) hstop

variable (stops)

/-- Refuses the names at which to stop. -/
def Pass.avoiding : Pass Symbol Bool := .all fun s => decide (s.name ∉ stops)

/-- Looks for a name at which to stop, and answers with it. -/
def Pass.seeking : Pass Symbol (Option String) :=
  .any fun s => if s.name ∈ stops then some s.name else none

/-- A walk that avoids the names stops at them and nowhere else. -/
theorem stopsAt_avoiding : (Pass.avoiding stops).stopsAt = Event.isStop stops := by
  funext ev
  cases ev with
  | visit i => rfl
  | symbol s =>
    show (!decide (s.name ∉ stops)) = decide (s.name ∈ stops)
    rw [decide_not, Bool.not_not]

theorem stopsAt_seeking : (Pass.seeking stops).stopsAt = Event.isStop stops := by
  funext ev
  cases ev with
  | visit i => rfl
  | symbol s =>
    show (if s.name ∈ stops then some s.name else none).isSome = decide (s.name ∈ stops)
    split
    · rename_i h
      exact (decide_eq_true h).symm
    · rename_i h
      exact (decide_eq_false h).symm

/-- The walk that avoids the names is cut at the first of them. -/
theorem isCutAtStop_avoiding (i : Item Symbol) :
    (Pass.avoiding stops).IsCutAtStop i.events ((Pass.avoiding stops).traced.visit i) :=
  Pass.isCutAtStop_visit ⟨fun _ => rfl, fun _ _ => rfl⟩ ⟨rfl, Bool.not_and⟩ i

/-- The walk that seeks the names is cut at the first of them. -/
theorem isCutAtStop_seeking (i : Item Symbol) :
    (Pass.seeking stops).IsCutAtStop i.events ((Pass.seeking stops).traced.visit i) :=
  Pass.isCutAtStop_visit ⟨fun _ => rfl, fun _ _ => rfl⟩ ⟨rfl, fun _ _ => Option.isSome_or⟩ i

theorem snd_traced_visit_avoiding (i : Item Symbol) :
    ((Pass.avoiding stops).traced.visit i).2 = upToFirst (Event.isStop stops) i.events := by
  rw [(isCutAtStop_avoiding stops i).log, stopsAt_avoiding]

theorem snd_traced_visit_seeking (i : Item Symbol) :
    ((Pass.seeking stops).traced.visit i).2 = upToFirst (Event.isStop stops) i.events := by
  rw [(isCutAtStop_seeking stops i).log, stopsAt_seeking]

/-- The conjunction accepts when there is no stop. -/
theorem visit_avoiding (i : Item Symbol) :
    (Pass.avoiding stops).visit i = !i.events.any (Event.isStop stops) := by
  have h : (!((Pass.avoiding stops).traced.visit i).1) = _ := (isCutAtStop_avoiding stops i).decided
  rw [Pass.fst_traced_visit, stopsAt_avoiding] at h
  rw [← h, Bool.not_not]

/-- The search answers when there is a stop. -/
theorem isSome_visit_seeking (i : Item Symbol) :
    ((Pass.seeking stops).visit i).isSome = i.events.any (Event.isStop stops) := by
  have h : ((Pass.seeking stops).traced.visit i).1.isSome = _ :=
    (isCutAtStop_seeking stops i).decided
  rwa [Pass.fst_traced_visit, stopsAt_seeking] at h

/-- A search answers with the name at its first stop. -/
theorem visit_seeking_of_split {i : Item Symbol} {before after : List (Event Symbol)} {s : Symbol}
    (hi : i.events = before ++ .symbol s :: after)
    (hbefore : before.any (Event.isStop stops) = false) (hs : s.name ∈ stops) :
    (Pass.seeking stops).visit i = some s.name := by
  rw [List.any_eq_false] at hbefore
  have hnone : (before.filterMap Event.symbol?).findSome?
      (fun t => if t.name ∈ stops then some t.name else none) = none := by
    rw [List.findSome?_eq_none_iff]
    intro t ht
    obtain ⟨ev, hev, hsymbol⟩ := List.mem_filterMap.1 ht
    cases ev with
    | visit j => cases hsymbol
    | symbol t' =>
      obtain rfl := Option.some.inj hsymbol
      exact if_neg fun h => hbefore _ hev (decide_eq_true h)
  calc (Pass.seeking stops).visit i
      = i.occurrences.findSome? fun t => if t.name ∈ stops then some t.name else none :=
        Item.visit_any_eq_findSome? _ i
    _ = some s.name := by
        rw [← Item.filterMap_symbol?_events, hi, List.filterMap_append, List.findSome?_append,
          hnone, Option.none_or, List.filterMap_cons]
        show (s :: after.filterMap Event.symbol?).findSome? _ = some s.name
        rw [List.findSome?_cons, if_pos hs]

end StopNames

/-- The log visits every position of the item once, in the order of the source, and looks at
every occurrence of a symbol. -/
structure Item.IsFullWalk (i : Item σ) (log : List (Event σ)) : Prop where
  visits : (log.filterMap Event.item?).map some = i.paths.map i.at?
  once : i.paths.Pairwise (· < ·)
  every : ∀ path, path ∈ i.paths ↔ ∃ d, i.at? path = some d
  symbols : log.filterMap Event.symbol? = i.occurrences

/-- The events of an item are a full walk through it. -/
theorem Item.isFullWalk_events (i : Item σ) : i.IsFullWalk i.events where
  visits := i.map_some_visited_events
  once := i.pairwise_lt_paths
  every _ := mem_paths_iff
  symbols := i.filterMap_symbol?_events

namespace Expr

/-- The events of a walk over an expression that never stops. -/
def events (e : Expr σ) : List (Event σ) := (Item.expr e).events

/-- **A walk that stops has done a prefix of the full walk.**  A pass that is never decided
logs all events, those of every position once.  With a set of stop names the conjunction and
the search log the shortest prefix that ends at a stop, the one refusing and the other
answering with the name there; where there is no stop they log everything, accept and do not
answer. -/
theorem traced_run_isCut (stops : Set String) [DecidablePred (· ∈ stops)] (e : Expr Symbol) :
    ((∀ (R : Type) (start : R) (combine : R → R → R) (symbol : Symbol → R),
      (({ start, combine, symbol, decided := fun _ => false } : Pass Symbol R).traced.run e).2 =
        e.events) ∧ (Item.expr e).IsFullWalk e.events) ∧
    ((∃ n, IsCut stops e.events ((Pass.avoiding stops).traced.run e).2 n ∧
        IsCut stops e.events ((Pass.seeking stops).traced.run e).2 n ∧
        (Pass.avoiding stops).run e = false ∧ (Pass.seeking stops).run e = some n) ∨
      ((∀ l n, l <+: e.events → ¬EndsAtStop stops l n) ∧
        ((Pass.avoiding stops).traced.run e).2 = e.events ∧
        ((Pass.seeking stops).traced.run e).2 = e.events ∧
        (Pass.avoiding stops).run e = true ∧ (Pass.seeking stops).run e = none)) := by
  refine ⟨⟨fun R start combine symbol => ?_, (Item.expr e).isFullWalk_events⟩, ?_⟩
  · exact Pass.snd_traced_visit_of_undecided ⟨fun _ => rfl, fun _ _ => rfl⟩ (fun _ => rfl) (.expr e)
  · have havoiding := snd_traced_visit_avoiding stops (.expr e)
    have hseeking := snd_traced_visit_seeking stops (.expr e)
    have haccepts := visit_avoiding stops (.expr e)
    cases hstop : e.events.any (Event.isStop stops) with
    | true =>
      obtain ⟨before, ev, after, hsplit, hbefore, hev, hcut⟩ := exists_upToFirst_eq hstop
      obtain ⟨s, rfl, hs⟩ := Event.exists_symbol_of_isStop hev
      have hlog : IsCut stops e.events (upToFirst (Event.isStop stops) e.events) s.name := by
        rw [hcut, hsplit]
        exact isCut_of_split hbefore hs
      refine .inl ⟨s.name, havoiding ▸ hlog, hseeking ▸ hlog, ?_, ?_⟩
      · exact haccepts.trans (congrArg not hstop)
      · exact visit_seeking_of_split stops hsplit hbefore hs
    | false =>
      have hall : upToFirst (Event.isStop stops) e.events = e.events :=
        upToFirst_of_any_eq_false hstop
      refine .inr ⟨fun l n hl hend => ?_, havoiding.trans hall, hseeking.trans hall, ?_, ?_⟩
      · obtain ⟨ev, hev, hisStop⟩ := hend.exists_isStop
        exact List.any_eq_false.1 hstop ev (hl.subset hev) hisStop
      · exact haccepts.trans (congrArg not hstop)
      · have hnone := (isSome_visit_seeking stops (.expr e)).trans hstop
        exact Option.isSome_eq_false_iff.1 hnone |> Option.isNone_iff_eq_none.1

end Expr
end FortranExpr
