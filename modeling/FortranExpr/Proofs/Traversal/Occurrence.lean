/-
# The occurrences of symbols, and folds over them

`Expr.occurrences` is the flat sequence of all occurrences of symbols in an expression,
from left to right.

| node | its occurrences |
| --- | --- |
| a name, a procedure | the symbol |
| a component | those of its base, then the component |
| a call | the callee, then those of the arguments |
| a coindexed reference | the coarray, then those of subscripts, cosubscripts, `stat`, `team` |
| an implied-DO loop | those of its bounds, of its stride and of its values |
| every other node | those of its parts |

An empty slot has none, and the index of a loop, the components that a structure
constructor names and the parameter of an inquiry are no occurrences.

A pass that leaves every item to the walk starts anew in every node and may stop in each
of them.  Where its results form a monoid in which the decided ones are absorbing
(`Combination`), nothing of this is left in its result: it is one fold over the
occurrences (`Combination.visit_pass`).
-/

import FortranExpr.Proofs.Traversal.Stopping

namespace FortranExpr

variable {σ : Type}

/-! ### The flat sequence of occurrences -/

/-- The symbol of a procedure of the program. -/
def Procedure.occurrences : Procedure σ → List σ
  | user s => [s]
  | intrinsic _ => []

mutual

/-- The occurrences of symbols in an expression, from left to right. -/
def Expr.occurrences : Expr σ → List σ
  | .entity ref => ref.occurrences
  | .constant _ | .boz _ | .nullPointer | .staticData _ _ => []
  | .designator proc => proc.occurrences
  | .call proc args _ => proc.occurrences ++ args.flatMap fun a => a.occurrences
  | .unary _ _ operand | .parens operand => operand.occurrences
  | .binary _ _ left right | .relational _ left right => left.occurrences ++ right.occurrences
  | .arrayRef base subscripts =>
    base.occurrences ++ subscripts.flatMap fun s => s.occurrences
  | .coindexed base subscripts cosubscripts stat team =>
    base :: ((subscripts.flatMap fun s => s.occurrences) ++
      (cosubscripts.flatMap fun e => e.occurrences) ++ stat.occurrences ++ team.occurrences)
  | .substring parent lower upper =>
    parent.occurrences ++ lower.occurrences ++ upper.occurrences
  | .complexPart complex _ => complex.occurrences
  | .arrayConstructor _ values => values.flatMap fun v => v.occurrences
  | .structureConstructor _ parameters components =>
    (parameters.flatMap fun p => p.occurrences) ++ components.flatMap fun c => c.occurrences
  | .typeParamInquiry _ none => []
  | .typeParamInquiry _ (some base) | .descriptorInquiry base _ _ => base.occurrences

/-- The occurrences in a name, or in a component and its base. -/
def DataRef.occurrences : DataRef σ → List σ
  | .symbol s => [s]
  | .component base c => base.occurrences ++ [c]

/-- The occurrences in the expression of a slot. -/
def Slot.occurrences : Slot σ → List σ
  | .empty => []
  | .filled e => e.occurrences

/-- The occurrences in the bounds and in the stride. -/
def Triplet.occurrences : Triplet σ → List σ
  | ⟨lower, upper, stride⟩ => lower.occurrences ++ upper.occurrences ++ stride.occurrences

/-- The occurrences in a subscript. -/
def Subscript.occurrences : Subscript σ → List σ
  | .element e => e.occurrences
  | .triplet t => t.occurrences

/-- The occurrences in an item of an array constructor. -/
def ArrayItem.occurrences : ArrayItem σ → List σ
  | .expr e => e.occurrences
  | .impliedDo loop => loop.occurrences

/-- The occurrences in the bounds, in the stride and in the values of a loop. -/
def ImpliedDo.occurrences : ImpliedDo σ → List σ
  | ⟨_, lower, upper, stride, values⟩ =>
    lower.occurrences ++ upper.occurrences ++ stride.occurrences ++
      values.flatMap fun v => v.occurrences

/-- The occurrences in the value of a type parameter. -/
def ParamValue.occurrences : ParamValue σ → List σ
  | .explicit e => e.occurrences
  | .assumed | .deferred => []

/-- The occurrences in the setting of a type parameter. -/
def ParamSetting.occurrences : ParamSetting σ → List σ
  | ⟨_, value⟩ => value.occurrences

/-- The occurrences in the value of a component. -/
def ComponentValue.occurrences : ComponentValue σ → List σ
  | ⟨_, value⟩ => value.occurrences

end

namespace Item

/-- The occurrences of symbols in an item. -/
def occurrences : Item σ → List σ
  | absent => []
  | symbol s => [s]
  | expr e => e.occurrences
  | subscript s => s.occurrences
  | triplet t => t.occurrences
  | impliedDo loop => loop.occurrences
  | param v => v.occurrences

@[simp] theorem occurrences_absent : (absent : Item σ).occurrences = [] := rfl

@[simp] theorem occurrences_symbol (s : σ) : (symbol s).occurrences = [s] := rfl

@[simp] theorem occurrences_expr (e : Expr σ) : (expr e).occurrences = e.occurrences := rfl

@[simp] theorem occurrences_subscript (s : Subscript σ) :
    (subscript s).occurrences = s.occurrences := rfl

@[simp] theorem occurrences_triplet (t : Triplet σ) :
    (triplet t).occurrences = t.occurrences := rfl

@[simp] theorem occurrences_impliedDo (loop : ImpliedDo σ) :
    (impliedDo loop).occurrences = loop.occurrences := rfl

@[simp] theorem occurrences_param (v : ParamValue σ) : (param v).occurrences = v.occurrences :=
  rfl

@[simp] theorem occurrences_procedure_item (p : Procedure σ) :
    p.item.occurrences = p.occurrences := by
  cases p <;> rfl

@[simp] theorem occurrences_slot_item (s : Slot σ) : s.item.occurrences = s.occurrences := by
  cases s with
  | empty => rw [Slot.item, occurrences, Slot.occurrences]
  | filled e => rw [Slot.item, occurrences, Slot.occurrences]

@[simp] theorem occurrences_arrayItem_item (a : ArrayItem σ) :
    a.item.occurrences = a.occurrences := by
  cases a with
  | expr e => rw [ArrayItem.item, occurrences, ArrayItem.occurrences]
  | impliedDo loop => rw [ArrayItem.item, occurrences, ArrayItem.occurrences]

@[simp] theorem occurrences_paramSetting_value (p : ParamSetting σ) :
    p.value.occurrences = p.occurrences := by
  obtain ⟨name, value⟩ := p
  rw [ParamSetting.occurrences]

@[simp] theorem occurrences_componentValue_value (c : ComponentValue σ) :
    c.value.occurrences = c.occurrences := by
  obtain ⟨component, value⟩ := c
  rw [ComponentValue.occurrences]

/-- An item that only names a symbol mentions this one. -/
theorem occurrences_of_named {i : Item σ} {s : σ} (hs : i.named? = some s) :
    i.occurrences = [s] := by
  rcases named?_eq_some_iff.1 hs with rfl | rfl
  · rfl
  · rw [occurrences, Expr.occurrences, DataRef.occurrences]

/-- An item that is no name has the occurrences of its parts, one part after the other. -/
theorem occurrences_of_unnamed {i : Item σ} (hs : i.named? = none) :
    i.occurrences = i.children.flatMap occurrences := by
  cases i with
  | absent => rfl
  | symbol s => cases hs
  | subscript s => cases s <;> simp [Subscript.occurrences, children]
  | triplet t =>
    obtain ⟨lower, upper, stride⟩ := t
    simp [Triplet.occurrences, children]
  | impliedDo loop =>
    obtain ⟨index, lower, upper, stride, values⟩ := loop
    simp [ImpliedDo.occurrences, children, List.flatMap_map]
  | param v => cases v <;> simp [ParamValue.occurrences, children]
  | expr e =>
    cases e with
    | entity ref =>
      cases ref with
      | symbol s => cases hs
      | component base c => simp [Expr.occurrences, DataRef.occurrences, children, Expr.children]
    | typeParamInquiry parameter base =>
      cases base <;> simp [Expr.occurrences, children, Expr.children]
    | _ => simp [Expr.occurrences, children, Expr.children, List.flatMap_map]

end Item

/-! ### Results that may be combined anywhere -/

/-- Results that form a monoid in which the decided ones absorb whatever follows. -/
structure Combination (R : Type) where
  start : R
  combine : R → R → R
  decided : R → Bool
  combine_assoc : ∀ a b c, combine (combine a b) c = combine a (combine b c)
  start_combine : ∀ r, combine start r = r
  combine_start : ∀ r, combine r start = r
  combine_of_decided : ∀ r x, decided r = true → combine r x = r

namespace Combination

variable {R α : Type}

/-- The pass that only says what an occurrence of a symbol gives. -/
def pass (m : Combination R) (symbol : σ → R) : Pass σ R where
  start := m.start
  combine := m.combine
  decided := m.decided
  symbol := symbol

/-- All results of a sequence combined, from left to right. -/
def join (m : Combination R) (l : List R) : R := l.foldl m.combine m.start

variable (m : Combination R)

/-- A fold may start anywhere, and be combined afterwards. -/
theorem foldl_eq_combine_join (acc : R) (l : List R) :
    l.foldl m.combine acc = m.combine acc (m.join l) := by
  have : Std.Associative m.combine := ⟨m.combine_assoc⟩
  have h : l.foldl m.combine (m.combine acc m.start) = m.combine acc (m.join l) :=
    List.foldl_assoc
  rwa [m.combine_start] at h

/-- Two sequences are combined as a whole. -/
theorem join_append (a b : List R) : m.join (a ++ b) = m.combine (m.join a) (m.join b) := by
  rw [join, List.foldl_append, foldl_eq_combine_join]
  rfl

/-- One result is its own combination. -/
theorem join_singleton (r : R) : m.join [r] = r := m.start_combine r

/-- Results may be combined group by group. -/
theorem join_map_join (f : α → List R) (l : List α) :
    m.join (l.map fun x => m.join (f x)) = m.join (l.flatMap f) := by
  induction l with
  | nil => rfl
  | cons x rest ih =>
    rw [List.flatMap_cons, join_append, ← ih, List.map_cons, ← List.singleton_append, join_append,
      join_singleton]

/-- Of a lawful combination a decided result absorbs the rest. -/
theorem pass_absorbing (symbol : σ → R) : (m.pass symbol).Absorbing := m.combine_of_decided

/-- A loop over parts adds their results, combined among themselves, to what it had. -/
theorem visitAll_pass (symbol : σ → R) (f : α → R) (acc : R) (l : List α) :
    (m.pass symbol).visitAll f acc l = m.combine acc (m.join (l.map f)) := by
  rw [← Pass.visitAll_exhaustive (m.pass_absorbing symbol), Pass.visitAll_exhaustive_eq_foldl,
    ← foldl_eq_combine_join, List.foldl_map]
  rfl

/-- All results together are what one loop over them finds. -/
theorem join_map_eq_visitAll (symbol : σ → R) (f : α → R) (l : List α) :
    m.join (l.map f) = (m.pass symbol).visitAll f m.start l := by
  rw [visitAll_pass, m.start_combine]

/-- **A walk is one fold over the occurrences,** wherever it starts anew and wherever it
stops. -/
theorem visit_pass (symbol : σ → R) (i : Item σ) :
    (m.pass symbol).visit i = m.join (i.occurrences.map symbol) := by
  induction i using Item.induction with
  | step i ih =>
    cases hs : i.named? with
    | some s =>
      rw [Pass.visit_of_named (m.pass symbol) rfl hs, Item.occurrences_of_named hs]
      exact (m.join_singleton (symbol s)).symm
    | none =>
      have hparts : i.children.map (m.pass symbol).visit =
          i.children.map fun c => m.join (c.occurrences.map symbol) := List.map_congr_left ih
      calc (m.pass symbol).visit i
          = (m.pass symbol).visitAll (m.pass symbol).visit m.start i.children :=
            Pass.visit_of_usual (m.pass symbol) rfl hs
        _ = m.join (i.children.map fun c => m.join (c.occurrences.map symbol)) := by
            rw [← join_map_eq_visitAll, hparts]
        _ = m.join (i.occurrences.map symbol) := by
            rw [join_map_join, Item.occurrences_of_unnamed hs, List.map_flatMap]

/-- Conjunction: a false result is final. -/
def conjunction : Combination Bool where
  start := true
  combine := and
  decided := not
  combine_assoc := Bool.and_assoc
  start_combine := Bool.true_and
  combine_start := Bool.and_true
  combine_of_decided _ _ h := by rw [(Bool.not_eq_true' _).mp h, Bool.false_and]

/-- The first answer: every answer is final. -/
def firstAnswer : Combination (Option α) where
  start := none
  combine := Option.or
  decided := Option.isSome
  combine_assoc _ _ _ := Option.or_assoc
  start_combine _ := Option.none_or
  combine_start _ := Option.or_none
  combine_of_decided _ _ h := Option.or_of_isSome h

end Combination

namespace Item

/-- A conjunction holds of an item when it holds of every occurrence in it. -/
theorem visit_all_eq_all (symbol : σ → Bool) (i : Item σ) :
    (Pass.all symbol).visit i = i.occurrences.all symbol :=
  calc (Pass.all symbol).visit i
      = (Pass.all symbol).visitAll symbol true i.occurrences :=
        (Combination.conjunction.visit_pass symbol i).trans
          (Combination.join_map_eq_visitAll _ symbol symbol _)
    _ = i.occurrences.all symbol := by rw [Pass.visitAll_all, Bool.true_and]

/-- The first answer of an item is that of the first occurrence that has one. -/
theorem visit_any_eq_findSome? {α : Type} (symbol : σ → Option α) (i : Item σ) :
    (Pass.any symbol).visit i = i.occurrences.findSome? symbol :=
  calc (Pass.any symbol).visit i
      = (Pass.any symbol).visitAll symbol none i.occurrences :=
        (Combination.firstAnswer.visit_pass symbol i).trans
          (Combination.join_map_eq_visitAll _ symbol symbol _)
    _ = i.occurrences.findSome? symbol := by rw [Pass.visitAll_any, Option.none_or]

end Item

namespace Expr

/-- **Stopping and starting anew are not seen in the result** of a pass that only says what
an occurrence of a symbol gives: the pass folds these results over the occurrences, from left
to right.  Conjunction and the first answer are such passes. -/
theorem run_pass_eq_foldl (e : Expr σ) :
    (∀ (R : Type) (m : Combination R) (symbol : σ → R),
      (m.pass symbol).run e = (e.occurrences.map symbol).foldl m.combine m.start) ∧
    (∀ symbol : σ → Bool, Pass.all symbol = Combination.conjunction.pass symbol ∧
      (Pass.all symbol).run e = e.occurrences.all symbol) ∧
    ∀ (α : Type) (symbol : σ → Option α),
      Pass.any symbol = Combination.firstAnswer.pass symbol ∧
        (Pass.any symbol).run e = e.occurrences.findSome? symbol := by
  refine ⟨fun R m symbol => ?_, fun symbol => ⟨rfl, ?_⟩, fun α symbol => ⟨rfl, ?_⟩⟩
  · exact m.visit_pass symbol (.expr e)
  · exact Item.visit_all_eq_all symbol (.expr e)
  · exact Item.visit_any_eq_findSome? symbol (.expr e)

end Expr
end FortranExpr
