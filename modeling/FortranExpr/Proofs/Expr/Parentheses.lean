/-
# Expressions without parentheses

`Expr.dropParens` puts the operand in the place of every pair of parentheses, wherever it
stands: in operands and designators, in subscripts and bounds, in arguments, loops and
constructors.  Nothing else changes, so the parts of what is left are what is left of the
parts (`Item.children_dropParens`), and at no position parentheses are left
(`Item.at?_dropParens_ne`).
-/

import FortranExpr.Expr.Rank
import FortranExpr.Proofs.Expr.Literal
import FortranExpr.Proofs.Traversal.Position

namespace FortranExpr

variable {σ : Type}

mutual

/-- An expression with its parentheses dropped everywhere. -/
def Expr.dropParens : Expr σ → Expr σ
  | .parens operand => operand.dropParens
  | .entity ref => .entity ref.dropParens
  | .constant c => .constant c
  | .boz bits => .boz bits
  | .nullPointer => .nullPointer
  | .staticData name data => .staticData name data
  | .designator proc => .designator proc
  | .call proc args rank => .call proc (args.map fun a => a.dropParens) rank
  | .unary op category operand => .unary op category operand.dropParens
  | .binary op category left right => .binary op category left.dropParens right.dropParens
  | .relational op left right => .relational op left.dropParens right.dropParens
  | .arrayRef base subscripts =>
    .arrayRef base.dropParens (subscripts.map fun s => s.dropParens)
  | .coindexed base subscripts cosubscripts stat team =>
    .coindexed base (subscripts.map fun s => s.dropParens)
      (cosubscripts.map fun e => e.dropParens) stat.dropParens team.dropParens
  | .substring parent lower upper =>
    .substring parent.dropParens lower.dropParens upper.dropParens
  | .complexPart complex part => .complexPart complex.dropParens part
  | .arrayConstructor category values =>
    .arrayConstructor category (values.map fun v => v.dropParens)
  | .structureConstructor type parameters components =>
    .structureConstructor type (parameters.map fun p => p.dropParens)
      (components.map fun c => c.dropParens)
  | .typeParamInquiry parameter none => .typeParamInquiry parameter none
  | .typeParamInquiry parameter (some base) => .typeParamInquiry parameter (some base.dropParens)
  | .descriptorInquiry base field dimension =>
    .descriptorInquiry base.dropParens field dimension

/-- A name, or a component of an object without parentheses. -/
def DataRef.dropParens : DataRef σ → DataRef σ
  | .symbol s => .symbol s
  | .component base c => .component base.dropParens c

/-- A slot whose expression has no parentheses. -/
def Slot.dropParens : Slot σ → Slot σ
  | .empty => .empty
  | .filled e => .filled e.dropParens

/-- A section whose bounds and stride have no parentheses. -/
def Triplet.dropParens : Triplet σ → Triplet σ
  | ⟨lower, upper, stride⟩ => ⟨lower.dropParens, upper.dropParens, stride.dropParens⟩

/-- A subscript without parentheses. -/
def Subscript.dropParens : Subscript σ → Subscript σ
  | .element e => .element e.dropParens
  | .triplet t => .triplet t.dropParens

/-- An item of an array constructor without parentheses. -/
def ArrayItem.dropParens : ArrayItem σ → ArrayItem σ
  | .expr e => .expr e.dropParens
  | .impliedDo loop => .impliedDo loop.dropParens

/-- A loop whose bounds, stride and values have no parentheses. -/
def ImpliedDo.dropParens : ImpliedDo σ → ImpliedDo σ
  | ⟨index, lower, upper, stride, values⟩ =>
    ⟨index, lower.dropParens, upper.dropParens, stride.dropParens,
      values.map fun v => v.dropParens⟩

/-- The value of a type parameter without parentheses. -/
def ParamValue.dropParens : ParamValue σ → ParamValue σ
  | .explicit e => .explicit e.dropParens
  | .assumed => .assumed
  | .deferred => .deferred

/-- The setting of a type parameter to a value without parentheses. -/
def ParamSetting.dropParens : ParamSetting σ → ParamSetting σ
  | ⟨name, value⟩ => ⟨name, value.dropParens⟩

/-- The value of a component without parentheses. -/
def ComponentValue.dropParens : ComponentValue σ → ComponentValue σ
  | ⟨component, value⟩ => ⟨component, value.dropParens⟩

end

/-- An item without parentheses. -/
def Item.dropParens : Item σ → Item σ
  | .absent => .absent
  | .symbol s => .symbol s
  | .expr e => .expr e.dropParens
  | .subscript s => .subscript s.dropParens
  | .triplet t => .triplet t.dropParens
  | .impliedDo loop => .impliedDo loop.dropParens
  | .param v => .param v.dropParens

/-! ### Under parentheses -/

namespace Expr

/-- Parentheses are dropped. -/
@[simp] theorem dropParens_parens (operand : Expr σ) :
    (parens operand).dropParens = operand.dropParens := by
  rw [dropParens]

/-- Whether the outer ones are taken off before does not matter. -/
theorem dropParens_unwrap (e : Expr σ) : e.unwrap.dropParens = e.dropParens := by
  fun_induction unwrap e with
  | case1 operand ih => rw [ih, dropParens_parens]
  | case2 => rfl

/-- Taking off the outer parentheses leaves none on the outside. -/
theorem unwrap_ne_parens (e operand : Expr σ) : e.unwrap ≠ parens operand := by
  fun_induction unwrap e with
  | case1 _ ih => exact ih
  | case2 e h => exact h operand

/-- An expression without its parentheses is no expression in parentheses. -/
theorem dropParens_ne_parens (e operand : Expr σ) : e.dropParens ≠ parens operand := by
  rw [← dropParens_unwrap]
  cases h : e.unwrap with
  | parens x => exact absurd h (e.unwrap_ne_parens x)
  | typeParamInquiry parameter base => cases base <;> simp [dropParens]
  | _ => simp [dropParens]

/-- Without parentheses nothing is left to unwrap. -/
theorem unwrap_dropParens (e : Expr σ) : e.dropParens.unwrap = e.dropParens := by
  rw [unwrap]
  exact e.dropParens_ne_parens

end Expr

/-! ### Positions -/

namespace Item

@[simp] theorem dropParens_absent : (absent : Item σ).dropParens = absent := rfl

@[simp] theorem dropParens_symbol (s : σ) : (symbol s).dropParens = symbol s := rfl

@[simp] theorem dropParens_expr (e : Expr σ) : (expr e).dropParens = expr e.dropParens := rfl

@[simp] theorem dropParens_subscript (s : Subscript σ) :
    (subscript s).dropParens = subscript s.dropParens := rfl

@[simp] theorem dropParens_triplet (t : Triplet σ) :
    (triplet t).dropParens = triplet t.dropParens := rfl

@[simp] theorem dropParens_impliedDo (loop : ImpliedDo σ) :
    (impliedDo loop).dropParens = impliedDo loop.dropParens := rfl

@[simp] theorem dropParens_param (v : ParamValue σ) :
    (param v).dropParens = param v.dropParens := rfl

@[simp] theorem dropParens_slot_item (s : Slot σ) : s.dropParens.item = s.item.dropParens := by
  cases s with
  | empty => rw [Slot.dropParens, Slot.item, dropParens]
  | filled e => rw [Slot.dropParens, Slot.item, Slot.item, dropParens]

@[simp] theorem dropParens_arrayItem_item (a : ArrayItem σ) :
    a.dropParens.item = a.item.dropParens := by
  cases a with
  | expr e => rw [ArrayItem.dropParens, ArrayItem.item, ArrayItem.item, dropParens]
  | impliedDo loop => rw [ArrayItem.dropParens, ArrayItem.item, ArrayItem.item, dropParens]

@[simp] theorem dropParens_procedure_item (p : Procedure σ) : p.item.dropParens = p.item := by
  cases p <;> rfl

@[simp] theorem value_paramSetting_dropParens (p : ParamSetting σ) :
    p.dropParens.value = p.value.dropParens := by
  obtain ⟨name, value⟩ := p
  rw [ParamSetting.dropParens]

@[simp] theorem value_componentValue_dropParens (c : ComponentValue σ) :
    c.dropParens.value = c.value.dropParens := by
  obtain ⟨component, value⟩ := c
  rw [ComponentValue.dropParens]

/-- **What is left of an item has what is left of its parts,** unless the item is
parentheses. -/
theorem children_dropParens {i : Item σ} (h : ∀ operand, i ≠ .expr (.parens operand)) :
    i.dropParens.children = i.children.map dropParens := by
  cases i with
  | absent | symbol => rfl
  | subscript s => cases s <;> simp [Subscript.dropParens, children]
  | triplet t =>
    obtain ⟨lower, upper, stride⟩ := t
    simp [Triplet.dropParens, children]
  | impliedDo loop =>
    obtain ⟨index, lower, upper, stride, values⟩ := loop
    simp [ImpliedDo.dropParens, children]
  | param v => cases v <;> simp [ParamValue.dropParens, children]
  | expr e =>
    cases e with
    | parens operand => exact absurd rfl (h operand)
    | entity ref =>
      cases ref <;> simp [Expr.dropParens, DataRef.dropParens, children, Expr.children]
    | typeParamInquiry parameter base =>
      cases base <;> simp [Expr.dropParens, children, Expr.children]
    | _ => simp [Expr.dropParens, children, Expr.children, Function.comp_def]

/-- Without parentheses around it an item names what it named. -/
theorem named?_dropParens {i : Item σ} (h : ∀ operand, i ≠ .expr (.parens operand)) :
    i.dropParens.named? = i.named? := by
  cases i with
  | expr e =>
    cases e with
    | parens operand => exact absurd rfl (h operand)
    | entity ref => cases ref <;> simp [Expr.dropParens, DataRef.dropParens, named?]
    | typeParamInquiry parameter base => cases base <;> simp [Expr.dropParens, named?]
    | _ => simp [Expr.dropParens, named?]
  | _ => rfl

/-- Every part of what is left of an item is what is left of an item. -/
theorem exists_of_mem_children_dropParens {i c : Item σ} (h : c ∈ i.dropParens.children) :
    ∃ j : Item σ, c = j.dropParens := by
  obtain ⟨i', hi', hparens⟩ : ∃ i' : Item σ, i.dropParens = i'.dropParens ∧
      ∀ operand, i' ≠ .expr (.parens operand) := by
    cases i with
    | expr e =>
      refine ⟨.expr e.unwrap, ?_, fun operand he => e.unwrap_ne_parens operand (expr.inj he)⟩
      exact congrArg expr e.dropParens_unwrap.symm
    | _ => exact ⟨_, rfl, fun _ => nofun⟩
  rw [hi', children_dropParens hparens] at h
  obtain ⟨j, _, rfl⟩ := List.mem_map.1 h
  exact ⟨j, rfl⟩

/-- **No parentheses are left** at any position. -/
theorem at?_dropParens_ne (i : Item σ) (path : List Nat) (operand : Expr σ) :
    i.dropParens.at? path ≠ some (.expr (.parens operand)) := by
  have key (path : List Nat) (i d : Item σ) (h : i.dropParens.at? path = some d) :
      ∃ j : Item σ, d = j.dropParens := by
    induction path generalizing i with
    | nil => exact ⟨i, (Option.some.inj h).symm⟩
    | cons k path ih =>
      obtain ⟨c, hc, hd⟩ := at?_cons_eq_some_iff.1 h
      obtain ⟨j, rfl⟩ := exists_of_mem_children_dropParens (List.mem_of_getElem? hc)
      exact ih j hd
  intro h
  obtain ⟨j, hj⟩ := key path i _ h
  cases j with
  | expr e => exact e.dropParens_ne_parens operand (expr.inj hj).symm
  | _ => cases hj

end Item

/-! ### Literals and ranks -/

namespace Expr

/-- Parentheses do not hide a literal. -/
theorem scalarValue?_dropParens (e : Expr σ) : e.dropParens.scalarValue? = e.scalarValue? := by
  rw [scalarValue?, unwrap_dropParens, ← dropParens_unwrap, scalarValue?]
  cases h : e.unwrap with
  | parens x => exact absurd h (e.unwrap_ne_parens x)
  | typeParamInquiry parameter base => cases base <;> simp [dropParens]
  | _ => simp [dropParens]

end Expr

mutual

/-- The rank of an expression is that of what is left of it. -/
theorem Expr.rank_dropParens : ∀ e : Expr Symbol, e.dropParens.rank = e.rank
  | .parens operand => by
    rw [Expr.dropParens, Expr.rank, Expr.rank_dropParens operand]
  | .entity ref => by
    rw [Expr.dropParens, Expr.rank, Expr.rank, DataRef.rank_dropParens ref]
  | .constant _ | .boz _ | .nullPointer | .staticData _ _ | .designator _ => by
    rw [Expr.dropParens]
  | .call _ _ _ | .arrayConstructor _ _ => by
    rw [Expr.dropParens, Expr.rank, Expr.rank]
  | .unary _ _ operand => by
    rw [Expr.dropParens, Expr.rank, Expr.rank, Expr.rank_dropParens operand]
  | .binary _ _ left right | .relational _ left right => by
    rw [Expr.dropParens, Expr.rank, Expr.rank, Expr.rank_dropParens left,
      Expr.rank_dropParens right]
  | .arrayRef (.symbol _) subscripts => by
    rw [Expr.dropParens, DataRef.dropParens, Expr.rank, Expr.rank,
      Subscript.map_rank_dropParens subscripts]
  | .arrayRef (.component base _) subscripts => by
    rw [Expr.dropParens, DataRef.dropParens, Expr.rank, Expr.rank, Expr.rank_dropParens base,
      Subscript.map_rank_dropParens subscripts]
  | .coindexed _ [] _ _ _ => by
    rw [Expr.dropParens, List.map_nil, Expr.rank, Expr.rank]
  | .coindexed _ (s :: rest) _ _ _ => by
    have hranks := Subscript.map_rank_dropParens (s :: rest)
    rw [List.map_cons] at hranks
    rw [Expr.dropParens, List.map_cons, Expr.rank, Expr.rank, hranks] <;> exact nofun
  | .substring parent _ _ => by
    rw [Expr.dropParens, Expr.rank, Expr.rank, Expr.rank_dropParens parent]
  | .complexPart complex _ => by
    rw [Expr.dropParens, Expr.rank, Expr.rank, Expr.rank_dropParens complex]
  | .structureConstructor _ _ _ | .descriptorInquiry _ _ _ => by
    simp [Expr.dropParens, Expr.rank]
  | .typeParamInquiry _ base => by
    cases base <;> simp [Expr.dropParens, Expr.rank]

/-- The rank of a name or a component is that of what is left of it. -/
theorem DataRef.rank_dropParens : ∀ ref : DataRef Symbol, ref.dropParens.rank = ref.rank
  | .symbol _ => by rw [DataRef.dropParens]
  | .component base _ => by
    rw [DataRef.dropParens, DataRef.rank, DataRef.rank, Expr.rank_dropParens base]

/-- A subscript keeps as many dimensions as what is left of it. -/
theorem Subscript.rank_dropParens : ∀ s : Subscript Symbol, s.dropParens.rank = s.rank
  | .element e => by
    rw [Subscript.dropParens, Subscript.rank, Subscript.rank, Expr.rank_dropParens e]
  | .triplet _ => by rw [Subscript.dropParens, Subscript.rank, Subscript.rank]

/-- So do subscripts together. -/
theorem Subscript.map_rank_dropParens : ∀ subscripts : List (Subscript Symbol),
    (subscripts.map fun s => s.dropParens).map (fun s => s.rank) = subscripts.map fun s => s.rank
  | [] => rfl
  | s :: rest => by
    rw [List.map_cons, List.map_cons, List.map_cons, Subscript.rank_dropParens s,
      Subscript.map_rank_dropParens rest]

end

end FortranExpr
