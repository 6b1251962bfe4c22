/-
# Other symbols in the same places

`Expr.replace f` puts the image of a symbol in the place of every symbol that an expression
refers to, as `Expr.map` does, with one difference: the components that a structure constructor
names are the keys of its values, and stay.

What does not tell a symbol from its image cannot tell that anything was replaced
(`Expr.map_replace`).
-/

import FortranExpr.Proofs.Expr.Map
import Mathlib.Logic.Basic

namespace FortranExpr

variable {σ τ : Type}

mutual

/-- An expression with other symbols in the places that refer to them. -/
def Expr.replace (f : σ → σ) : Expr σ → Expr σ
  | .entity ref => .entity (ref.replace f)
  | .constant c => .constant c
  | .boz bits => .boz bits
  | .nullPointer => .nullPointer
  | .staticData name data => .staticData name data
  | .designator proc => .designator (proc.map f)
  | .call proc args rank => .call (proc.map f) (args.map fun a => a.replace f) rank
  | .unary op category operand => .unary op category (operand.replace f)
  | .binary op category left right => .binary op category (left.replace f) (right.replace f)
  | .parens operand => .parens (operand.replace f)
  | .relational op left right => .relational op (left.replace f) (right.replace f)
  | .arrayRef base subscripts =>
    .arrayRef (base.replace f) (subscripts.map fun s => s.replace f)
  | .coindexed base subscripts cosubscripts stat team =>
    .coindexed (f base) (subscripts.map fun s => s.replace f)
      (cosubscripts.map fun e => e.replace f) (stat.replace f) (team.replace f)
  | .substring parent lower upper =>
    .substring (parent.replace f) (lower.replace f) (upper.replace f)
  | .complexPart complex part => .complexPart (complex.replace f) part
  | .arrayConstructor category values =>
    .arrayConstructor category (values.map fun v => v.replace f)
  | .structureConstructor type parameters components =>
    .structureConstructor type (parameters.map fun p => p.replace f)
      (components.map fun c => c.replace f)
  | .typeParamInquiry parameter none => .typeParamInquiry (f parameter) none
  | .typeParamInquiry parameter (some base) =>
    .typeParamInquiry (f parameter) (some (base.replace f))
  | .descriptorInquiry base field dimension =>
    .descriptorInquiry (base.replace f) field dimension

/-- A name or a component with other symbols. -/
def DataRef.replace (f : σ → σ) : DataRef σ → DataRef σ
  | .symbol s => .symbol (f s)
  | .component base c => .component (base.replace f) (f c)

/-- A slot with other symbols. -/
def Slot.replace (f : σ → σ) : Slot σ → Slot σ
  | .empty => .empty
  | .filled e => .filled (e.replace f)

/-- A section with other symbols in its bounds and stride. -/
def Triplet.replace (f : σ → σ) : Triplet σ → Triplet σ
  | ⟨lower, upper, stride⟩ => ⟨lower.replace f, upper.replace f, stride.replace f⟩

/-- A subscript with other symbols. -/
def Subscript.replace (f : σ → σ) : Subscript σ → Subscript σ
  | .element e => .element (e.replace f)
  | .triplet t => .triplet (t.replace f)

/-- An item of an array constructor with other symbols. -/
def ArrayItem.replace (f : σ → σ) : ArrayItem σ → ArrayItem σ
  | .expr e => .expr (e.replace f)
  | .impliedDo loop => .impliedDo (loop.replace f)

/-- A loop with other symbols, the index among them. -/
def ImpliedDo.replace (f : σ → σ) : ImpliedDo σ → ImpliedDo σ
  | ⟨index, lower, upper, stride, values⟩ =>
    ⟨f index, lower.replace f, upper.replace f, stride.replace f,
      values.map fun v => v.replace f⟩

/-- The value of a type parameter with other symbols. -/
def ParamValue.replace (f : σ → σ) : ParamValue σ → ParamValue σ
  | .explicit e => .explicit (e.replace f)
  | .assumed => .assumed
  | .deferred => .deferred

/-- The setting of a type parameter with other symbols in its value. -/
def ParamSetting.replace (f : σ → σ) : ParamSetting σ → ParamSetting σ
  | ⟨name, value⟩ => ⟨name, value.replace f⟩

/-- The value of the same component with other symbols. -/
def ComponentValue.replace (f : σ → σ) : ComponentValue σ → ComponentValue σ
  | ⟨component, value⟩ => ⟨component, value.replace f⟩

end

/-! ### What does not tell a symbol from its image -/

section Map

variable {f : σ → σ} {h : σ → τ}

theorem Procedure.map_map_of_eq (hf : ∀ s, h (f s) = h s) (proc : Procedure σ) :
    (proc.map f).map h = proc.map h := by
  cases proc with
  | user s => exact congrArg Procedure.user (hf s)
  | intrinsic name => rfl

mutual

/-- **What is replaced goes unnoticed** by a map that does not tell a symbol from its image. -/
theorem Expr.map_replace (hf : ∀ s, h (f s) = h s) :
    ∀ e : Expr σ, (e.replace f).map h = e.map h
  | .entity ref => by rw [Expr.replace, Expr.map, Expr.map, DataRef.map_replace hf ref]
  | .constant _ | .boz _ | .nullPointer | .staticData _ _ => by rw [Expr.replace]
  | .designator proc => by rw [Expr.replace, Expr.map, Expr.map, Procedure.map_map_of_eq hf]
  | .call proc args rank => by
    have hargs : (args.map fun a => (a.replace f).map h) = args.map fun a => a.map h :=
      List.map_congr_left fun a _ => Slot.map_replace hf a
    rw [Expr.replace, Expr.map, Expr.map, Procedure.map_map_of_eq hf, List.map_map]
    exact congrArg (Expr.call _ · rank) hargs
  | .unary _ _ operand | .parens operand => by
    rw [Expr.replace, Expr.map, Expr.map, Expr.map_replace hf operand]
  | .binary _ _ left right | .relational _ left right => by
    rw [Expr.replace, Expr.map, Expr.map, Expr.map_replace hf left, Expr.map_replace hf right]
  | .arrayRef base subscripts => by
    have hsubscripts : (subscripts.map fun s => (s.replace f).map h) =
        subscripts.map fun s => s.map h :=
      List.map_congr_left fun s _ => Subscript.map_replace hf s
    rw [Expr.replace, Expr.map, Expr.map, DataRef.map_replace hf base, List.map_map]
    exact congrArg (Expr.arrayRef _) hsubscripts
  | .coindexed base subscripts cosubscripts stat team => by
    have hsubscripts : (subscripts.map fun s => (s.replace f).map h) =
        subscripts.map fun s => s.map h :=
      List.map_congr_left fun s _ => Subscript.map_replace hf s
    have hcosubscripts : (cosubscripts.map fun e => (e.replace f).map h) =
        cosubscripts.map fun e => e.map h :=
      List.map_congr_left fun e _ => Expr.map_replace hf e
    rw [Expr.replace, Expr.map, Expr.map, hf base, Slot.map_replace hf stat,
      Slot.map_replace hf team, List.map_map, List.map_map]
    exact congrArg₂ (Expr.coindexed _ · · _ _) hsubscripts hcosubscripts
  | .substring parent lower upper => by
    rw [Expr.replace, Expr.map, Expr.map, Expr.map_replace hf parent,
      Slot.map_replace hf lower, Slot.map_replace hf upper]
  | .complexPart complex _ => by
    rw [Expr.replace, Expr.map, Expr.map, Expr.map_replace hf complex]
  | .arrayConstructor _ values => by
    have hvalues : (values.map fun v => (v.replace f).map h) = values.map fun v => v.map h :=
      List.map_congr_left fun v _ => ArrayItem.map_replace hf v
    rw [Expr.replace, Expr.map, Expr.map, List.map_map]
    exact congrArg (Expr.arrayConstructor _) hvalues
  | .structureConstructor _ parameters components => by
    have hparameters : (parameters.map fun p => (p.replace f).map h) =
        parameters.map fun p => p.map h :=
      List.map_congr_left fun p _ => ParamSetting.map_replace hf p
    have hcomponents : (components.map fun c => (c.replace f).map h) =
        components.map fun c => c.map h :=
      List.map_congr_left fun c _ => ComponentValue.map_replace hf c
    rw [Expr.replace, Expr.map, Expr.map, List.map_map, List.map_map]
    exact congrArg₂ (Expr.structureConstructor _) hparameters hcomponents
  | .typeParamInquiry parameter none => by
    rw [Expr.replace, Expr.map, Expr.map, hf parameter]
  | .typeParamInquiry parameter (some base) => by
    rw [Expr.replace, Expr.map, Expr.map, hf parameter, DataRef.map_replace hf base]
  | .descriptorInquiry base _ _ => by
    rw [Expr.replace, Expr.map, Expr.map, DataRef.map_replace hf base]

/-- So it goes unnoticed in a name or a component. -/
theorem DataRef.map_replace (hf : ∀ s, h (f s) = h s) :
    ∀ ref : DataRef σ, (ref.replace f).map h = ref.map h
  | .symbol s => by rw [DataRef.replace, DataRef.map, DataRef.map, hf s]
  | .component base c => by
    rw [DataRef.replace, DataRef.map, DataRef.map, Expr.map_replace hf base, hf c]

/-- So it goes unnoticed in a slot. -/
theorem Slot.map_replace (hf : ∀ s, h (f s) = h s) :
    ∀ s : Slot σ, (s.replace f).map h = s.map h
  | .empty => by rw [Slot.replace]
  | .filled e => by rw [Slot.replace, Slot.map, Slot.map, Expr.map_replace hf e]

/-- So it goes unnoticed in a section. -/
theorem Triplet.map_replace (hf : ∀ s, h (f s) = h s) :
    ∀ t : Triplet σ, (t.replace f).map h = t.map h
  | ⟨lower, upper, stride⟩ => by
    rw [Triplet.replace, Triplet.map, Triplet.map, Slot.map_replace hf lower,
      Slot.map_replace hf upper, Slot.map_replace hf stride]

/-- So it goes unnoticed in a subscript. -/
theorem Subscript.map_replace (hf : ∀ s, h (f s) = h s) :
    ∀ s : Subscript σ, (s.replace f).map h = s.map h
  | .element e => by rw [Subscript.replace, Subscript.map, Subscript.map, Expr.map_replace hf e]
  | .triplet t => by
    rw [Subscript.replace, Subscript.map, Subscript.map, Triplet.map_replace hf t]

/-- So it goes unnoticed in an item of an array constructor. -/
theorem ArrayItem.map_replace (hf : ∀ s, h (f s) = h s) :
    ∀ a : ArrayItem σ, (a.replace f).map h = a.map h
  | .expr e => by rw [ArrayItem.replace, ArrayItem.map, ArrayItem.map, Expr.map_replace hf e]
  | .impliedDo loop => by
    rw [ArrayItem.replace, ArrayItem.map, ArrayItem.map, ImpliedDo.map_replace hf loop]

/-- So it goes unnoticed in a loop. -/
theorem ImpliedDo.map_replace (hf : ∀ s, h (f s) = h s) :
    ∀ loop : ImpliedDo σ, (loop.replace f).map h = loop.map h
  | ⟨index, lower, upper, stride, values⟩ => by
    have hvalues : (values.map fun v => (v.replace f).map h) = values.map fun v => v.map h :=
      List.map_congr_left fun v _ => ArrayItem.map_replace hf v
    rw [ImpliedDo.replace, ImpliedDo.map, ImpliedDo.map, hf index, Expr.map_replace hf lower,
      Expr.map_replace hf upper, Slot.map_replace hf stride, List.map_map]
    exact congrArg (ImpliedDo.mk _ _ _ _) hvalues

/-- So it goes unnoticed in the value of a type parameter. -/
theorem ParamValue.map_replace (hf : ∀ s, h (f s) = h s) :
    ∀ v : ParamValue σ, (v.replace f).map h = v.map h
  | .explicit e => by
    rw [ParamValue.replace, ParamValue.map, ParamValue.map, Expr.map_replace hf e]
  | .assumed | .deferred => by rw [ParamValue.replace]

/-- So it goes unnoticed in the setting of a type parameter. -/
theorem ParamSetting.map_replace (hf : ∀ s, h (f s) = h s) :
    ∀ p : ParamSetting σ, (p.replace f).map h = p.map h
  | ⟨name, value⟩ => by
    rw [ParamSetting.replace, ParamSetting.map, ParamSetting.map, ParamValue.map_replace hf value]

/-- So it goes unnoticed in the value of a component. -/
theorem ComponentValue.map_replace (hf : ∀ s, h (f s) = h s) :
    ∀ c : ComponentValue σ, (c.replace f).map h = c.map h
  | ⟨component, value⟩ => by
    rw [ComponentValue.replace, ComponentValue.map, ComponentValue.map, Expr.map_replace hf value]

end

end Map

/-! ### Parts -/

namespace Item

variable (f : σ → σ)

/-- An item with other symbols in the places that refer to them. -/
def replace : Item σ → Item σ
  | absent => absent
  | symbol s => symbol (f s)
  | expr e => expr (e.replace f)
  | subscript s => subscript (s.replace f)
  | triplet t => triplet (t.replace f)
  | impliedDo loop => impliedDo (loop.replace f)
  | param v => param (v.replace f)

@[simp] theorem slot_item_replace (s : Slot σ) : (s.replace f).item = s.item.replace f := by
  cases s with
  | empty => rw [Slot.replace, Slot.item, replace]
  | filled e => rw [Slot.replace, Slot.item, Slot.item, replace]

@[simp] theorem arrayItem_item_replace (a : ArrayItem σ) :
    (a.replace f).item = a.item.replace f := by
  cases a with
  | expr e => rw [ArrayItem.replace, ArrayItem.item, ArrayItem.item, replace]
  | impliedDo loop => rw [ArrayItem.replace, ArrayItem.item, ArrayItem.item, replace]

@[simp] theorem paramSetting_value_replace (p : ParamSetting σ) :
    (p.replace f).value = p.value.replace f := by
  obtain ⟨name, value⟩ := p
  rw [ParamSetting.replace]

@[simp] theorem componentValue_value_replace (c : ComponentValue σ) :
    (c.replace f).value = c.value.replace f := by
  obtain ⟨component, value⟩ := c
  rw [ComponentValue.replace]

/-- **The parts of an item with other symbols** are its parts with other symbols: the components
that a constructor names are no parts. -/
theorem children_replace (i : Item σ) : (i.replace f).children = i.children.map (replace f) := by
  cases i with
  | absent | symbol => rfl
  | subscript s => cases s <;> simp [replace, Subscript.replace, children]
  | triplet t =>
    obtain ⟨lower, upper, stride⟩ := t
    simp [replace, Triplet.replace, children]
  | impliedDo loop =>
    obtain ⟨index, lower, upper, stride, values⟩ := loop
    simp [replace, ImpliedDo.replace, children]
  | param v => cases v <;> simp [replace, ParamValue.replace, children]
  | expr e =>
    cases e with
    | entity ref =>
      cases ref <;> simp [replace, Expr.replace, DataRef.replace, children, Expr.children]
    | designator proc =>
      cases proc <;> simp [replace, Expr.replace, children, Expr.children, Procedure.map,
        Procedure.item]
    | typeParamInquiry parameter base =>
      cases base <;> simp [replace, Expr.replace, children, Expr.children]
    | _ => simp [replace, Expr.replace, children, Expr.children, Function.comp_def]

theorem named?_replace (i : Item σ) : (i.replace f).named? = i.named?.map f := by
  cases i with
  | expr e =>
    cases e with
    | entity ref => cases ref <;> simp [replace, Expr.replace, DataRef.replace, named?]
    | typeParamInquiry parameter base => cases base <;> simp [replace, Expr.replace, named?]
    | _ => simp [replace, Expr.replace, named?]
  | _ => rfl

end Item

end FortranExpr
