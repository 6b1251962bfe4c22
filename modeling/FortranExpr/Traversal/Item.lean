/-
# What a walk over an expression visits

A walk visits items: expressions, the parts of expressions that are no expressions
themselves, symbols, and places where nothing stands.  `Item.children` lists the
parts of an item in source order; every part is smaller than the whole
(`sizeOf_lt_of_mem_children`), which gives induction over items.

An item that only names a symbol (`Item.named?`) has no parts.  The index of a loop,
the components that a structure constructor names and the parameter of an inquiry
are names, not parts.
-/

import FortranExpr.Expr.Basic

namespace FortranExpr

variable {σ : Type}

/-- One stop of a walk. -/
inductive Item (σ : Type) where
  | absent
  | symbol (s : σ)
  | expr (e : Expr σ)
  | subscript (s : Subscript σ)
  | triplet (t : Triplet σ)
  | impliedDo (loop : ImpliedDo σ)
  | param (v : ParamValue σ)

/-- A slot as a stop. -/
def Slot.item : Slot σ → Item σ
  | empty => .absent
  | filled e => .expr e

/-- An item of an array constructor as a stop. -/
def ArrayItem.item : ArrayItem σ → Item σ
  | expr e => .expr e
  | impliedDo loop => .impliedDo loop

/-- A procedure as a part of its designator. -/
def Procedure.item : Procedure σ → Item σ
  | user s => .symbol s
  | intrinsic _ => .absent

namespace Expr

/-- The parts of an expression in source order. -/
def children : Expr σ → List (Item σ)
  | entity (.symbol _) | constant _ | boz _ | nullPointer | staticData _ _ => []
  | entity (.component base c) => [.expr base, .symbol c]
  | designator proc => [proc.item]
  | call proc args _ => .expr (designator proc) :: args.map Slot.item
  | unary _ _ operand | parens operand => [.expr operand]
  | binary _ _ left right | relational _ left right => [.expr left, .expr right]
  | arrayRef base subscripts => .expr (entity base) :: subscripts.map .subscript
  | coindexed base subscripts cosubscripts stat team =>
    .symbol base :: (subscripts.map .subscript ++ cosubscripts.map .expr ++
      [stat.item, team.item])
  | substring parent lower upper => [.expr parent, lower.item, upper.item]
  | complexPart complex _ => [.expr complex]
  | arrayConstructor _ values => values.map ArrayItem.item
  | structureConstructor _ parameters components =>
    parameters.map (fun p => .param p.value) ++ components.map fun c => .expr c.value
  | typeParamInquiry _ none => [.absent]
  | typeParamInquiry _ (some base) => [.expr (entity base)]
  | descriptorInquiry base _ _ => [.expr (entity base)]

end Expr

namespace Item

/-- The parts of an item in source order. -/
def children : Item σ → List (Item σ)
  | absent | symbol _ => []
  | expr e => e.children
  | subscript (.element e) => [expr e]
  | subscript (.triplet t) => [triplet t]
  | triplet ⟨lower, upper, stride⟩ => [lower.item, upper.item, stride.item]
  | impliedDo ⟨_, lower, upper, stride, values⟩ =>
    expr lower :: expr upper :: stride.item :: values.map ArrayItem.item
  | param (.explicit e) => [expr e]
  | param .assumed | param .deferred => [absent]

/-- The symbol that an item names, when it does nothing else. -/
def named? : Item σ → Option σ
  | symbol s | expr (.entity (.symbol s)) => some s
  | _ => none

theorem named?_eq_some_iff {i : Item σ} {s : σ} :
    i.named? = some s ↔ i = symbol s ∨ i = expr (.entity (.symbol s)) := by
  constructor
  · intro h
    unfold named? at h
    split at h
    · exact .inl (congrArg symbol (Option.some.inj h))
    · exact .inr (congrArg (fun s => expr (.entity (.symbol s))) (Option.some.inj h))
    · cases h
  · rintro (rfl | rfl) <;> rfl

/-! ### Parts are smaller -/

theorem sizeOf_slot_item_le (s : Slot σ) : sizeOf s.item ≤ sizeOf s := by
  cases s <;> simp [Slot.item]

theorem sizeOf_arrayItem_item_le (a : ArrayItem σ) : sizeOf a.item ≤ sizeOf a := by
  cases a <;> simp [ArrayItem.item]

theorem sizeOf_procedure_item_le (p : Procedure σ) : sizeOf p.item ≤ sizeOf p := by
  cases p <;> simp [Procedure.item]

/-- Also the list without items counts. -/
theorem sizeOf_list_pos {α : Type} [SizeOf α] (l : List α) : 0 < sizeOf l := by
  cases l with
  | nil => exact Nat.one_pos
  | cons x rest =>
    rw [List.cons.sizeOf_spec]
    omega

/-- The parts of an expression are smaller than the stop at it. -/
theorem sizeOf_lt_of_mem_exprChildren {e : Expr σ} {c : Item σ} (h : c ∈ e.children) :
    sizeOf c < 1 + sizeOf e := by
  cases e with
  | entity ref =>
    cases ref with
    | symbol s => cases h
    | component base s =>
      simp only [Expr.children, List.mem_cons, List.not_mem_nil, or_false] at h
      simp only [Expr.entity.sizeOf_spec, DataRef.component.sizeOf_spec]
      rcases h with rfl | rfl
      · rw [expr.sizeOf_spec]
        omega
      · rw [symbol.sizeOf_spec]
        omega
  | constant | boz | nullPointer | staticData => cases h
  | designator proc =>
    simp only [Expr.children, List.mem_singleton] at h
    have hproc := sizeOf_procedure_item_le proc
    rw [h, Expr.designator.sizeOf_spec]
    omega
  | call proc args rank =>
    simp only [Expr.children, List.mem_cons, List.mem_map] at h
    rw [Expr.call.sizeOf_spec]
    rcases h with rfl | ⟨a, ha, rfl⟩
    · have hargs := sizeOf_list_pos args
      rw [expr.sizeOf_spec, Expr.designator.sizeOf_spec]
      omega
    · have hitem := sizeOf_slot_item_le a
      have hmem := List.sizeOf_lt_of_mem ha
      omega
  | unary op category operand | parens operand | complexPart operand part =>
    simp only [Expr.children, List.mem_singleton] at h
    simp only [h, expr.sizeOf_spec, Expr.unary.sizeOf_spec, Expr.parens.sizeOf_spec,
      Expr.complexPart.sizeOf_spec]
    omega
  | binary op category left right | relational op left right =>
    simp only [Expr.children, List.mem_cons, List.not_mem_nil, or_false] at h
    simp only [Expr.binary.sizeOf_spec, Expr.relational.sizeOf_spec]
    rcases h with rfl | rfl
    · rw [expr.sizeOf_spec]
      omega
    · rw [expr.sizeOf_spec]
      omega
  | arrayRef base subscripts =>
    simp only [Expr.children, List.mem_cons, List.mem_map] at h
    rw [Expr.arrayRef.sizeOf_spec]
    rcases h with rfl | ⟨a, ha, rfl⟩
    · have hsubscripts := sizeOf_list_pos subscripts
      rw [expr.sizeOf_spec, Expr.entity.sizeOf_spec]
      omega
    · have hmem := List.sizeOf_lt_of_mem ha
      rw [subscript.sizeOf_spec]
      omega
  | coindexed base subscripts cosubscripts stat team =>
    simp only [Expr.children, List.mem_cons, List.mem_append, List.mem_map, List.not_mem_nil,
      or_false] at h
    rw [Expr.coindexed.sizeOf_spec]
    rcases h with rfl | ((⟨a, ha, rfl⟩ | ⟨a, ha, rfl⟩) | rfl | rfl)
    · rw [symbol.sizeOf_spec]
      omega
    · have hmem := List.sizeOf_lt_of_mem ha
      rw [subscript.sizeOf_spec]
      omega
    · have hmem := List.sizeOf_lt_of_mem ha
      rw [expr.sizeOf_spec]
      omega
    · have hstat := sizeOf_slot_item_le stat
      omega
    · have hteam := sizeOf_slot_item_le team
      omega
  | substring parent lower upper =>
    simp only [Expr.children, List.mem_cons, List.not_mem_nil, or_false] at h
    rw [Expr.substring.sizeOf_spec]
    rcases h with rfl | rfl | rfl
    · rw [expr.sizeOf_spec]
      omega
    · have hlower := sizeOf_slot_item_le lower
      omega
    · have hupper := sizeOf_slot_item_le upper
      omega
  | arrayConstructor category values =>
    simp only [Expr.children, List.mem_map] at h
    obtain ⟨a, ha, rfl⟩ := h
    have hitem := sizeOf_arrayItem_item_le a
    have hmem := List.sizeOf_lt_of_mem ha
    rw [Expr.arrayConstructor.sizeOf_spec]
    omega
  | structureConstructor type parameters components =>
    simp only [Expr.children, List.mem_append, List.mem_map] at h
    rw [Expr.structureConstructor.sizeOf_spec]
    rcases h with ⟨⟨name, value⟩, ha, rfl⟩ | ⟨⟨component, value⟩, ha, rfl⟩
    · have hmem := List.sizeOf_lt_of_mem ha
      rw [ParamSetting.mk.sizeOf_spec] at hmem
      show 1 + sizeOf value < _
      omega
    · have hmem := List.sizeOf_lt_of_mem ha
      rw [ComponentValue.mk.sizeOf_spec] at hmem
      show 1 + sizeOf value < _
      omega
  | typeParamInquiry parameter base =>
    rw [Expr.typeParamInquiry.sizeOf_spec]
    cases base with
    | none =>
      simp only [Expr.children, List.mem_singleton] at h
      rw [h, absent.sizeOf_spec]
      omega
    | some base =>
      simp only [Expr.children, List.mem_singleton] at h
      rw [h, expr.sizeOf_spec, Expr.entity.sizeOf_spec, Option.some.sizeOf_spec]
      omega
  | descriptorInquiry base field dimension =>
    simp only [Expr.children, List.mem_singleton] at h
    have hfield : 0 < sizeOf field := by cases field <;> simp
    rw [h, expr.sizeOf_spec, Expr.entity.sizeOf_spec, Expr.descriptorInquiry.sizeOf_spec]
    omega

/-- **Every part is smaller than the whole.** -/
theorem sizeOf_lt_of_mem_children {i c : Item σ} (h : c ∈ i.children) : sizeOf c < sizeOf i := by
  cases i with
  | absent | symbol => cases h
  | expr e =>
    rw [expr.sizeOf_spec]
    exact sizeOf_lt_of_mem_exprChildren h
  | subscript s =>
    cases s with
    | element e =>
      simp only [children, List.mem_singleton] at h
      rw [h, expr.sizeOf_spec, subscript.sizeOf_spec, Subscript.element.sizeOf_spec]
      omega
    | triplet t =>
      simp only [children, List.mem_singleton] at h
      rw [h, triplet.sizeOf_spec, subscript.sizeOf_spec, Subscript.triplet.sizeOf_spec]
      omega
  | triplet t =>
    obtain ⟨lower, upper, stride⟩ := t
    simp only [children, List.mem_cons, List.not_mem_nil, or_false] at h
    rw [triplet.sizeOf_spec, Triplet.mk.sizeOf_spec]
    rcases h with rfl | rfl | rfl
    · have hlower := sizeOf_slot_item_le lower
      omega
    · have hupper := sizeOf_slot_item_le upper
      omega
    · have hstride := sizeOf_slot_item_le stride
      omega
  | impliedDo loop =>
    obtain ⟨index, lower, upper, stride, values⟩ := loop
    simp only [children, List.mem_cons, List.mem_map] at h
    rw [impliedDo.sizeOf_spec, ImpliedDo.mk.sizeOf_spec]
    rcases h with rfl | rfl | rfl | ⟨a, ha, rfl⟩
    · rw [expr.sizeOf_spec]
      omega
    · rw [expr.sizeOf_spec]
      omega
    · have hstride := sizeOf_slot_item_le stride
      omega
    · have hitem := sizeOf_arrayItem_item_le a
      have hmem := List.sizeOf_lt_of_mem ha
      omega
  | param v =>
    cases v with
    | explicit e =>
      simp only [children, List.mem_singleton] at h
      rw [h, expr.sizeOf_spec, param.sizeOf_spec, ParamValue.explicit.sizeOf_spec]
      omega
    | assumed | deferred =>
      simp only [children, List.mem_singleton] at h
      rw [h, absent.sizeOf_spec, param.sizeOf_spec]
      simp

/-- Induction over items: what holds of an item as soon as it holds of all its parts
holds of every item. -/
theorem induction {motive : Item σ → Prop}
    (step : ∀ i : Item σ, (∀ c ∈ i.children, motive c) → motive i) (i : Item σ) : motive i :=
  step i fun c _ => induction step c
termination_by sizeOf i
decreasing_by exact sizeOf_lt_of_mem_children ‹_›

end Item
end FortranExpr
