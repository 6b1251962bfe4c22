/-
# Sessions with collectors

A session works on any number of collectors, and on copies of their lists.

| operation | what the collector gets |
| --- | --- |
| `add`, `addError`, `addWarning` | the diagnostic |
| `say` | the diagnostic, at its own place or else where the context is |
| `merge` | what another collector holds at that moment |
| `clear` | it starts anew |
| `list`, `listErrors`, `edit` | nothing: a list that was handed out belongs to the caller |

`get_perform` tells in one equation what an operation does to each collector.  From it follows
what a collector holds after any session (`collectors_consistent`), and that its flag, which no
operation looks up in the list, agrees with the list at every moment.  `copies_perform` tells the
same of the lists that were handed out, and `copies_run` what becomes of one in a session.
-/

import FortranExpr.Proofs.Diagnostic.Collector
import Mathlib.Data.List.DropRight

namespace FortranExpr

/-! ### Contexts -/

namespace Context

/-- The context after it was taken to one place after another. -/
def along (context : Context) (places : List Span) : Context :=
  places.foldl (fun c place => c.withLocation (some place)) context

/-- The last place counts. -/
theorem location_along (context : Context) (places : List Span) :
    (context.along places).location = places.getLast?.or context.location := by
  induction places using List.reverseRecOn with
  | nil => rfl
  | append_singleton rest place _ =>
    rw [along, List.foldl_concat, List.getLast?_concat, withLocation, Option.some_or]

end Context

/-! ### Collectors side by side -/

namespace CollectorStore

theorem get_set (store : CollectorStore) (receiver name : String) (c : Collector) :
    (store.set receiver c).get name = if receiver = name then c else store.get name := by
  rw [get, set, OrderedMap.get?_insert, get]
  split <;> rfl

/-- Adding to a collector leaves the others as they are. -/
theorem get_foldl_add (store : CollectorStore) (receiver name : String) (ds : List Diagnostic) :
    (ds.foldl (fun store d => store.add receiver d) store).get name =
      (store.get name).addAll (if receiver = name then ds else []) := by
  induction ds generalizing store with
  | nil => rw [ite_self]; rfl
  | cons d rest ih =>
    rw [List.foldl_cons, ih, add, get_set]
    by_cases h : receiver = name
    · subst h
      rw [if_pos rfl, if_pos rfl, if_pos rfl]
      rfl
    · rw [if_neg h, if_neg h, if_neg h]

/-- Merging adds what is left of the source, as long as that stays as it is. -/
theorem mergeFrom?_eq_some {receiver source : String} (different : receiver ≠ source)
    (turns i : Nat) (store : CollectorStore)
    (hturns : (store.get source).diagnostics.length = i + turns) :
    mergeFrom? receiver source turns i store =
      some (((store.get source).diagnostics.drop i).foldl (fun store d => store.add receiver d)
        store) := by
  induction turns generalizing i store with
  | zero =>
    unfold mergeFrom?
    rw [List.getElem?_eq_none (by omega), List.drop_eq_nil_of_le (by omega)]
    rfl
  | succ turns ih =>
    have hi : i < (store.get source).diagnostics.length := by omega
    have hsource (d : Diagnostic) : (store.add receiver d).get source = store.get source := by
      rw [add, get_set, if_neg different]
    unfold mergeFrom?
    rw [List.getElem?_eq_getElem hi, List.drop_eq_getElem_cons hi, List.foldl_cons]
    show mergeFrom? receiver source turns (i + 1) (store.add receiver _) = _
    rw [ih _ _ (by rw [hsource]; omega), hsource]

/-- **Another collector is merged to the end,** and that is a copy of its list. -/
theorem merge?_eq_some {receiver source : String} (different : receiver ≠ source)
    (store : CollectorStore) :
    store.merge? receiver source =
      some ((store.get source).diagnostics.foldl (fun store d => store.add receiver d)
        store) := by
  rw [merge?, mergeFrom?_eq_some different _ _ _ (by rw [Collector.size, Nat.zero_add]),
    List.drop_zero]

end CollectorStore

/-! ### Operations -/

/-- Collectors, and the lists that were handed out. -/
structure Session where
  store : CollectorStore
  copies : List (List Diagnostic)

namespace Session

/-- One step of a session.  A collector is only ever merged into another one. -/
inductive Operation where
  | add (receiver : String) (d : Diagnostic)
  | addError (receiver message : String) (span : Option Span)
  | addWarning (receiver message : String) (span : Option Span)
  | say (receiver : String) (context : Context) (places : List Span) (d : Diagnostic)
  | merge (receiver source : String) (different : receiver ≠ source)
  | clear (receiver : String)
  | list (collector : String)
  | listErrors (collector : String)
  | edit (copy : Nat) (change : List Diagnostic → List Diagnostic)

namespace Operation

/-- What an operation does to a collector, if it does anything to one. -/
def action? : Operation → Option (String × CollectorStore.Action)
  | add receiver d => some (receiver, .add d)
  | addError receiver message span => some (receiver, .add { level := .error, message, span })
  | addWarning receiver message span => some (receiver, .add { level := .warning, message, span })
  | say receiver context places d => some (receiver, .say (context.along places) d)
  | merge receiver source _ => some (receiver, .merge source)
  | clear receiver => some (receiver, .clear)
  | list _ | listErrors _ | edit _ _ => none

/-- Whatever an operation does to a collector comes to an end. -/
theorem isSome_perform? {op : Operation} {receiver : String} {action : CollectorStore.Action}
    (h : op.action? = some (receiver, action)) (store : CollectorStore) :
    (store.perform? receiver action).isSome = true := by
  cases op with
  | merge _ source different =>
    obtain ⟨rfl, rfl⟩ := Prod.mk.inj (Option.some.inj h)
    rw [CollectorStore.perform?, CollectorStore.merge?_eq_some different, Option.isSome_some]
  | list | listErrors | edit => cases h
  | _ =>
    obtain ⟨rfl, rfl⟩ := Prod.mk.inj (Option.some.inj h)
    rfl

/-- The collector is on the receiving side of the operation. -/
def isOn (name : String) (op : Operation) : Bool := op.action?.any fun a => a.1 == name

/-- The operation empties the collector. -/
def clears (name : String) : Operation → Bool
  | clear receiver => receiver == name
  | _ => false

end Operation

/-- The lists that are handed out, after an operation. -/
def copiesAfter (s : Session) : Operation → List (List Diagnostic)
  | .list collector => s.copies ++ [(s.store.get collector).diagnostics]
  | .listErrors collector => s.copies ++ [(s.store.get collector).errors]
  | .edit copy change => s.copies.modify copy change
  | _ => s.copies

/-- Does one step. -/
def perform (s : Session) (op : Operation) : Session where
  store :=
    match h : op.action? with
    | some (_, _) => (s.store.perform? _ _).get (Operation.isSome_perform? h s.store)
    | none => s.store
  copies := s.copiesAfter op

/-- No collector holds anything, and no list was handed out. -/
def empty : Session := ⟨.empty, []⟩

/-- The state after a session. -/
def run (ops : List Operation) : Session := ops.foldl perform empty

/-- The diagnostics that an operation gives to a collector. -/
def Operation.given (name : String) (s : Session) : Operation → List Diagnostic
  | add receiver d => if receiver = name then [d] else []
  | addError receiver message span =>
    if receiver = name then [{ level := .error, message, span }] else []
  | addWarning receiver message span =>
    if receiver = name then [{ level := .warning, message, span }] else []
  | say receiver context places d =>
    if receiver = name then
      [{ d with span := d.span.or (places.getLast?.or context.location) }]
    else []
  | merge receiver source _ => if receiver = name then (s.store.get source).diagnostics else []
  | clear _ | list _ | listErrors _ | edit _ _ => []

theorem perform_of_action? {op : Operation} {receiver : String} {action : CollectorStore.Action}
    (h : op.action? = some (receiver, action)) (s : Session) :
    s.store.perform? receiver action = some (s.perform op).store := by
  have hstore : (s.perform op).store =
      (s.store.perform? receiver action).get (Operation.isSome_perform? h s.store) := by
    rw [perform]
    split
    · rename_i h'
      obtain ⟨rfl, rfl⟩ := Prod.mk.inj (Option.some.inj (h'.symm.trans h))
      rfl
    · rename_i h'
      cases h'.symm.trans h
  rw [hstore, Option.some_get]

/-- An operation on no collector leaves all of them as they are. -/
theorem store_perform_of_action?_eq_none {op : Operation} (h : op.action? = none) (s : Session) :
    (s.perform op).store = s.store := by
  rw [perform]
  split
  · rename_i h'
    cases h'.symm.trans h
  · rfl

/-- **What an operation does to each collector:** it empties it, or adds what it gives. -/
theorem get_perform (s : Session) (op : Operation) (name : String) :
    (s.perform op).store.get name =
      if op.clears name then .empty else (s.store.get name).addAll (op.given name s) := by
  -- every operation that adds diagnostics adds a list of them to its collector
  have added {receiver : String} {action : CollectorStore.Action} (ds : List Diagnostic)
      (h : op.action? = some (receiver, action))
      (hadds : s.store.perform? receiver action =
        some (ds.foldl (fun store d => store.add receiver d) s.store)) :
      (s.perform op).store.get name =
        (s.store.get name).addAll (if receiver = name then ds else []) := by
    rw [← Option.some.inj (hadds.symm.trans (perform_of_action? h s)),
      CollectorStore.get_foldl_add]
  cases op with
  | add receiver d => exact added [d] rfl rfl
  | addError receiver message span => exact added [_] rfl rfl
  | addWarning receiver message span => exact added [_] rfl rfl
  | say receiver context places d =>
    have hplace : (context.along places).place d =
        { d with span := d.span.or (places.getLast?.or context.location) } := by
      rw [Context.place, Context.location_along]
    exact added [_] rfl (by rw [← hplace]; rfl)
  | merge receiver source different =>
    exact added _ rfl (CollectorStore.merge?_eq_some different s.store)
  | clear receiver =>
    have haction : (Operation.clear receiver).action? = some (receiver, .clear) := rfl
    have hclear : s.store.set receiver .empty = (s.perform (.clear receiver)).store :=
      Option.some.inj (perform_of_action? haction s)
    rw [← hclear, CollectorStore.get_set, Operation.clears, Operation.given]
    simp only [beq_iff_eq]
    rfl
  | list | listErrors | edit =>
    rw [store_perform_of_action?_eq_none rfl]
    rfl

theorem clears_eq_false_of_isOn {op : Operation} {name : String} (h : op.isOn name = false) :
    op.clears name = false := by
  cases op with
  | clear receiver => exact h
  | _ => rfl

theorem given_of_isOn {op : Operation} {name : String} (h : op.isOn name = false) (s : Session) :
    op.given name s = [] := by
  cases op with
  | clear | list | listErrors | edit => rfl
  | _ => exact if_neg (ne_of_beq_false h)

/-- **The other collectors stay as they are,** also the source of a merge. -/
theorem get_perform_of_isOn {op : Operation} {name : String} (h : op.isOn name = false)
    (s : Session) : (s.perform op).store.get name = s.store.get name := by
  rw [get_perform, clears_eq_false_of_isOn h, given_of_isOn h]
  rfl

/-! ### Lists that were handed out -/

/-- The list that an operation hands out, if it hands out one: all that the collector holds, or
the errors among it. -/
def Operation.handsOut? (s : Session) : Operation → Option (List Diagnostic)
  | list collector => some (s.store.get collector).diagnostics
  | listErrors collector =>
    some ((s.store.get collector).diagnostics.filter fun d => decide (d.level = .error))
  | _ => none

/-- What becomes of the list that was handed out as number `n`. -/
def Operation.onCopy (op : Operation) (n : Nat) (held : List Diagnostic) : List Diagnostic :=
  match op with
  | edit copy change => if copy = n then change held else held
  | _ => held

/-- **What an operation does to the lists that were handed out:** it adds the one it hands out,
and changes the others only by an edit. -/
theorem copies_perform (s : Session) (op : Operation) :
    (s.perform op).copies = s.copies.mapIdx op.onCopy ++ (op.handsOut? s).toList := by
  have kept : s.copies.mapIdx (fun _ held => held) = s.copies := List.mapIdx_eq_iff.2 (by simp)
  cases op with
  | edit copy change =>
    show s.copies.modify copy change = _ ++ []
    rw [List.append_nil]
    refine List.ext_getElem? fun n => ?_
    rw [List.getElem?_modify, List.getElem?_mapIdx]
    rfl
  | list | listErrors => exact congrArg (· ++ _) kept.symm
  | _ => exact kept.symm.trans (List.append_nil _).symm

/-- An edit changes the list it is about, no other one and no collector. -/
theorem perform_edit (s : Session) (copy : Nat) (change : List Diagnostic → List Diagnostic) :
    (s.perform (.edit copy change)).store = s.store ∧
    ∀ n, (s.perform (.edit copy change)).copies[n]? =
      if copy = n then s.copies[n]?.map change else s.copies[n]? := by
  refine ⟨store_perform_of_action?_eq_none rfl s, fun n => ?_⟩
  have hcopies : (s.perform (.edit copy change)).copies = s.copies.modify copy change := rfl
  rw [hcopies, List.getElem?_modify]
  split
  · rfl
  · exact Option.map_id' ..

/-! ### Sessions -/

theorem run_concat (ops : List Operation) (op : Operation) :
    run (ops ++ [op]) = (run ops).perform op := List.foldl_concat ..

/-- The flag of every collector fits after every session. -/
theorem flagFits_run (ops : List Operation) (name : String) :
    ((run ops).store.get name).FlagFits := by
  induction ops using List.reverseRecOn with
  | nil => exact Collector.flagFits_empty
  | append_singleton earlier op ih =>
    rw [run_concat, get_perform]
    split
    · exact Collector.flagFits_empty
    · exact ih.addAll _

/-- Each operation with those before it, of which some are known already. -/
def withEarlier (earlier : List Operation) : List Operation → List (List Operation × Operation)
  | [] => []
  | op :: later => (earlier, op) :: withEarlier (earlier ++ [op]) later

theorem withEarlier_concat (earlier ops : List Operation) (op : Operation) :
    withEarlier earlier (ops ++ [op]) = withEarlier earlier ops ++ [(earlier ++ ops, op)] := by
  induction ops generalizing earlier with
  | nil => rw [List.append_nil]; rfl
  | cons first later ih =>
    rw [List.cons_append, withEarlier, ih, withEarlier, List.append_assoc,
      List.singleton_append, List.cons_append]

/-- What was done since the collector was last cleared, each operation with all those before
it. -/
def sinceClear (name : String) (ops : List Operation) : List (List Operation × Operation) :=
  (withEarlier [] ops).rtakeWhile fun moment => !moment.2.clears name

/-- The list of a collector after every session is what it was given since it was last
cleared. -/
theorem diagnostics_run (ops : List Operation) (name : String) :
    ((run ops).store.get name).diagnostics =
      (sinceClear name ops).flatMap fun moment => moment.2.given name (run moment.1) := by
  induction ops using List.reverseRecOn with
  | nil => rfl
  | append_singleton earlier op ih =>
    rw [run_concat, get_perform, sinceClear, withEarlier_concat, List.rtakeWhile_concat,
      List.nil_append]
    cases hclears : op.clears name with
    | true => rfl
    | false =>
      simp only [Bool.false_eq_true, if_false, Bool.not_false, if_true]
      rw [Collector.diagnostics_addAll, ih, List.flatMap_append, List.flatMap_singleton]
      rfl

/-- **A list that was handed out belongs to the caller.**  It is what the collector held at that
moment, or the errors among it; whatever session follows, only the edits of this very list
change it. -/
theorem copies_run (earlier later : List Operation) {op : Operation} {held : List Diagnostic}
    (h : op.handsOut? (run earlier) = some held) :
    (run (earlier ++ op :: later)).copies[(run earlier).copies.length]? =
      some (later.foldl (fun held op => op.onCopy (run earlier).copies.length held) held) := by
  induction later using List.reverseRecOn with
  | nil =>
    rw [run_concat, copies_perform, h, List.getElem?_append_right (by simp)]
    simp
  | append_singleton later last ih =>
    have hlast : earlier ++ op :: (later ++ [last]) = (earlier ++ op :: later) ++ [last] := by simp
    obtain ⟨hlt, -⟩ := List.getElem?_eq_some_iff.1 ih
    rw [hlast, run_concat, copies_perform, List.getElem?_append_left (by simpa using hlt),
      List.getElem?_mapIdx, ih, List.foldl_concat]
    rfl

/-- **Collectors are consistent after every session:** whatever was done before, the flag, the
list, the errors and the counts of each collector fit together; its list is what it was given
since it was last cleared, in that order; and every further operation comes to an end and
leaves all collectors that it is not on as they are. -/
theorem collectors_consistent (ops : List Operation) (name : String) :
    ((run ops).store.get name).IsConsistent ∧
    ((run ops).store.get name).diagnostics =
      ((sinceClear name ops).flatMap fun moment => moment.2.given name (run moment.1)) ∧
    (∀ op receiver action, op.action? = some (receiver, action) →
      (run ops).store.perform? receiver action = some (run (ops ++ [op])).store) ∧
    ∀ op : Operation, op.isOn name = false →
      (run (ops ++ [op])).store.get name = (run ops).store.get name := by
  refine ⟨(flagFits_run ops name).isConsistent, diagnostics_run ops name, ?_, ?_⟩
  · intro op receiver action h
    rw [run_concat]
    exact perform_of_action? h (run ops)
  · intro op h
    rw [run_concat]
    exact get_perform_of_isOn h (run ops)

/-- What was merged stays when the source is cleared afterwards. -/
example :
    let s := run [.addError "a" "m" none, .merge "b" "a" (by decide), .clear "a",
      .addWarning "a" "n" none]
    (s.store.get "a").hasErrors = false ∧ (s.store.get "b").hasErrors = true := by
  decide

end Session
end FortranExpr
