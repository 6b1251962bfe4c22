/-
# Expressions over other symbols

`Expr.map f` puts the image of a symbol in the place of the symbol, wherever it stands: in
names and components, in procedures, in coindexed references, as the index of a loop, as the
component that a constructor names, as the parameter of an inquiry.  Nothing else changes.

| question | has the same answer, if |
| --- | --- |
| the parts of an item, and what it names | always, over the images (`Item.children_map`) |
| the literal that an expression is | always |
| the rank | the images have the ranks of the symbols |
| the text | the images have the names of the symbols |
| the result of a pass | its answers for symbols and its rules are the same (`Pass.AgreesAlong`) |
-/

import FortranExpr.Expr.Printer
import FortranExpr.Expr.Rank
import FortranExpr.Proofs.Expr.Literal
import FortranExpr.Proofs.Traversal.Stopping

namespace FortranExpr

variable {σ τ R : Type}

/-- A procedure over other symbols. -/
def Procedure.map (f : σ → τ) : Procedure σ → Procedure τ
  | user s => user (f s)
  | intrinsic name => intrinsic name

mutual

/-- An expression over other symbols. -/
def Expr.map (f : σ → τ) : Expr σ → Expr τ
  | .entity ref => .entity (ref.map f)
  | .constant c => .constant c
  | .boz bits => .boz bits
  | .nullPointer => .nullPointer
  | .staticData name data => .staticData name data
  | .designator proc => .designator (proc.map f)
  | .call proc args rank => .call (proc.map f) (args.map fun a => a.map f) rank
  | .unary op category operand => .unary op category (operand.map f)
  | .binary op category left right => .binary op category (left.map f) (right.map f)
  | .parens operand => .parens (operand.map f)
  | .relational op left right => .relational op (left.map f) (right.map f)
  | .arrayRef base subscripts => .arrayRef (base.map f) (subscripts.map fun s => s.map f)
  | .coindexed base subscripts cosubscripts stat team =>
    .coindexed (f base) (subscripts.map fun s => s.map f) (cosubscripts.map fun e => e.map f)
      (stat.map f) (team.map f)
  | .substring parent lower upper => .substring (parent.map f) (lower.map f) (upper.map f)
  | .complexPart complex part => .complexPart (complex.map f) part
  | .arrayConstructor category values => .arrayConstructor category (values.map fun v => v.map f)
  | .structureConstructor type parameters components =>
    .structureConstructor type (parameters.map fun p => p.map f) (components.map fun c => c.map f)
  | .typeParamInquiry parameter none => .typeParamInquiry (f parameter) none
  | .typeParamInquiry parameter (some base) => .typeParamInquiry (f parameter) (some (base.map f))
  | .descriptorInquiry base field dimension => .descriptorInquiry (base.map f) field dimension

/-- A named object or a component over other symbols. -/
def DataRef.map (f : σ → τ) : DataRef σ → DataRef τ
  | .symbol s => .symbol (f s)
  | .component base c => .component (base.map f) (f c)

/-- A slot over other symbols. -/
def Slot.map (f : σ → τ) : Slot σ → Slot τ
  | .empty => .empty
  | .filled e => .filled (e.map f)

/-- A section over other symbols. -/
def Triplet.map (f : σ → τ) : Triplet σ → Triplet τ
  | ⟨lower, upper, stride⟩ => ⟨lower.map f, upper.map f, stride.map f⟩

/-- A subscript over other symbols. -/
def Subscript.map (f : σ → τ) : Subscript σ → Subscript τ
  | .element e => .element (e.map f)
  | .triplet t => .triplet (t.map f)

/-- An item of an array constructor over other symbols. -/
def ArrayItem.map (f : σ → τ) : ArrayItem σ → ArrayItem τ
  | .expr e => .expr (e.map f)
  | .impliedDo loop => .impliedDo (loop.map f)

/-- A loop over other symbols. -/
def ImpliedDo.map (f : σ → τ) : ImpliedDo σ → ImpliedDo τ
  | ⟨index, lower, upper, stride, values⟩ =>
    ⟨f index, lower.map f, upper.map f, stride.map f, values.map fun v => v.map f⟩

/-- The value of a type parameter over other symbols. -/
def ParamValue.map (f : σ → τ) : ParamValue σ → ParamValue τ
  | .explicit e => .explicit (e.map f)
  | .assumed => .assumed
  | .deferred => .deferred

/-- The setting of a type parameter over other symbols. -/
def ParamSetting.map (f : σ → τ) : ParamSetting σ → ParamSetting τ
  | ⟨name, value⟩ => ⟨name, value.map f⟩

/-- The value of a component over other symbols. -/
def ComponentValue.map (f : σ → τ) : ComponentValue σ → ComponentValue τ
  | ⟨component, value⟩ => ⟨f component, value.map f⟩

end

/-- An item over other symbols. -/
def Item.map (f : σ → τ) : Item σ → Item τ
  | .absent => .absent
  | .symbol s => .symbol (f s)
  | .expr e => .expr (e.map f)
  | .subscript s => .subscript (s.map f)
  | .triplet t => .triplet (t.map f)
  | .impliedDo loop => .impliedDo (loop.map f)
  | .param v => .param (v.map f)

/-! ### The same symbols -/

theorem Procedure.map_id (p : Procedure σ) : p.map id = p := by
  cases p <;> rfl

mutual

/-- An expression over its own symbols. -/
theorem Expr.map_id : ∀ e : Expr σ, e.map id = e
  | .entity ref => by rw [Expr.map, DataRef.map_id ref]
  | .constant _ | .boz _ | .nullPointer | .staticData _ _ => by rw [Expr.map]
  | .designator proc => by rw [Expr.map, Procedure.map_id]
  | .call proc args rank => by
    have hargs : (args.map fun a => a.map id) = args.map id :=
      List.map_congr_left fun a _ => Slot.map_id a
    rw [Expr.map, Procedure.map_id, hargs, List.map_id]
  | .unary _ _ operand | .parens operand => by rw [Expr.map, Expr.map_id operand]
  | .binary _ _ left right | .relational _ left right => by
    rw [Expr.map, Expr.map_id left, Expr.map_id right]
  | .arrayRef base subscripts => by
    have hsubscripts : (subscripts.map fun s => s.map id) = subscripts.map id :=
      List.map_congr_left fun s _ => Subscript.map_id s
    rw [Expr.map, DataRef.map_id base, hsubscripts, List.map_id]
  | .coindexed base subscripts cosubscripts stat team => by
    have hsubscripts : (subscripts.map fun s => s.map id) = subscripts.map id :=
      List.map_congr_left fun s _ => Subscript.map_id s
    have hcosubscripts : (cosubscripts.map fun e => e.map id) = cosubscripts.map id :=
      List.map_congr_left fun e _ => Expr.map_id e
    rw [Expr.map, hsubscripts, hcosubscripts, List.map_id, List.map_id, Slot.map_id stat,
      Slot.map_id team, id]
  | .substring parent lower upper => by
    rw [Expr.map, Expr.map_id parent, Slot.map_id lower, Slot.map_id upper]
  | .complexPart complex _ => by rw [Expr.map, Expr.map_id complex]
  | .arrayConstructor _ values => by
    have hvalues : (values.map fun v => v.map id) = values.map id :=
      List.map_congr_left fun v _ => ArrayItem.map_id v
    rw [Expr.map, hvalues, List.map_id]
  | .structureConstructor _ parameters components => by
    have hparameters : (parameters.map fun p => p.map id) = parameters.map id :=
      List.map_congr_left fun p _ => ParamSetting.map_id p
    have hcomponents : (components.map fun c => c.map id) = components.map id :=
      List.map_congr_left fun c _ => ComponentValue.map_id c
    rw [Expr.map, hparameters, hcomponents, List.map_id, List.map_id]
  | .typeParamInquiry parameter none => by rw [Expr.map, id]
  | .typeParamInquiry parameter (some base) => by rw [Expr.map, DataRef.map_id base, id]
  | .descriptorInquiry base _ _ => by rw [Expr.map, DataRef.map_id base]

/-- A named object or a component over its own symbols. -/
theorem DataRef.map_id : ∀ ref : DataRef σ, ref.map id = ref
  | .symbol s => by rw [DataRef.map, id]
  | .component base c => by rw [DataRef.map, Expr.map_id base, id]

/-- A slot over its own symbols. -/
theorem Slot.map_id : ∀ s : Slot σ, s.map id = s
  | .empty => by rw [Slot.map]
  | .filled e => by rw [Slot.map, Expr.map_id e]

/-- A section over its own symbols. -/
theorem Triplet.map_id : ∀ t : Triplet σ, t.map id = t
  | ⟨lower, upper, stride⟩ => by
    rw [Triplet.map, Slot.map_id lower, Slot.map_id upper, Slot.map_id stride]

/-- A subscript over its own symbols. -/
theorem Subscript.map_id : ∀ s : Subscript σ, s.map id = s
  | .element e => by rw [Subscript.map, Expr.map_id e]
  | .triplet t => by rw [Subscript.map, Triplet.map_id t]

/-- An item of an array constructor over its own symbols. -/
theorem ArrayItem.map_id : ∀ a : ArrayItem σ, a.map id = a
  | .expr e => by rw [ArrayItem.map, Expr.map_id e]
  | .impliedDo loop => by rw [ArrayItem.map, ImpliedDo.map_id loop]

/-- A loop over its own symbols. -/
theorem ImpliedDo.map_id : ∀ loop : ImpliedDo σ, loop.map id = loop
  | ⟨index, lower, upper, stride, values⟩ => by
    have hvalues : (values.map fun v => v.map id) = values.map id :=
      List.map_congr_left fun v _ => ArrayItem.map_id v
    rw [ImpliedDo.map, Expr.map_id lower, Expr.map_id upper, Slot.map_id stride, hvalues,
      List.map_id, id]

/-- The value of a type parameter over its own symbols. -/
theorem ParamValue.map_id : ∀ v : ParamValue σ, v.map id = v
  | .explicit e => by rw [ParamValue.map, Expr.map_id e]
  | .assumed | .deferred => by rw [ParamValue.map]

/-- The setting of a type parameter over its own symbols. -/
theorem ParamSetting.map_id : ∀ p : ParamSetting σ, p.map id = p
  | ⟨name, value⟩ => by rw [ParamSetting.map, ParamValue.map_id value]

/-- The value of a component over its own symbols. -/
theorem ComponentValue.map_id : ∀ c : ComponentValue σ, c.map id = c
  | ⟨component, value⟩ => by rw [ComponentValue.map, Expr.map_id value, id]

end

variable (f : σ → τ)

/-! ### Parts -/

namespace Item

@[simp] theorem map_absent : (absent : Item σ).map f = absent := rfl

@[simp] theorem map_symbol (s : σ) : (symbol s).map f = symbol (f s) := rfl

@[simp] theorem map_expr (e : Expr σ) : (expr e).map f = expr (e.map f) := rfl

@[simp] theorem map_subscript (s : Subscript σ) :
    (subscript s).map f = subscript (s.map f) := rfl

@[simp] theorem map_triplet (t : Triplet σ) : (triplet t).map f = triplet (t.map f) := rfl

@[simp] theorem map_impliedDo (loop : ImpliedDo σ) :
    (impliedDo loop).map f = impliedDo (loop.map f) := rfl

@[simp] theorem map_param (v : ParamValue σ) : (param v).map f = param (v.map f) := rfl

@[simp] theorem slot_item_map (s : Slot σ) : (s.map f).item = s.item.map f := by
  cases s with
  | empty => rw [Slot.map, Slot.item, Slot.item, map]
  | filled e => rw [Slot.map, Slot.item, Slot.item, map]

@[simp] theorem arrayItem_item_map (a : ArrayItem σ) : (a.map f).item = a.item.map f := by
  cases a with
  | expr e => rw [ArrayItem.map, ArrayItem.item, ArrayItem.item, map]
  | impliedDo loop => rw [ArrayItem.map, ArrayItem.item, ArrayItem.item, map]

@[simp] theorem procedure_item_map (p : Procedure σ) : (p.map f).item = p.item.map f := by
  cases p <;> rfl

@[simp] theorem paramSetting_value_map (p : ParamSetting σ) :
    (p.map f).value = p.value.map f := by
  obtain ⟨name, value⟩ := p
  rw [ParamSetting.map]

@[simp] theorem componentValue_value_map (c : ComponentValue σ) :
    (c.map f).value = c.value.map f := by
  obtain ⟨component, value⟩ := c
  rw [ComponentValue.map]

/-- **The parts of an item over other symbols** are its parts over other symbols. -/
theorem children_map (i : Item σ) : (i.map f).children = i.children.map (Item.map f) := by
  cases i with
  | absent | symbol => rfl
  | subscript s => cases s <;> simp [Subscript.map, children]
  | triplet t =>
    obtain ⟨lower, upper, stride⟩ := t
    simp [Triplet.map, children]
  | impliedDo loop =>
    obtain ⟨index, lower, upper, stride, values⟩ := loop
    simp [ImpliedDo.map, children]
  | param v => cases v <;> simp [ParamValue.map, children]
  | expr e =>
    cases e with
    | entity ref => cases ref <;> simp [Expr.map, DataRef.map, children, Expr.children]
    | typeParamInquiry parameter base => cases base <;> simp [Expr.map, children, Expr.children]
    | _ => simp [Expr.map, children, Expr.children, Function.comp_def]

theorem named?_map (i : Item σ) : (i.map f).named? = i.named?.map f := by
  cases i with
  | expr e =>
    cases e with
    | entity ref => cases ref <;> simp [Expr.map, DataRef.map, named?]
    | typeParamInquiry parameter base => cases base <;> simp [Expr.map, named?]
    | _ => simp [Expr.map, named?]
  | _ => rfl

end Item

/-! ### Passes -/

namespace Pass

/-- The pass `q` says of the image of a symbol what `p` says of the symbol, and has the rule
for an item over the images that `p` has for the item. -/
structure AgreesAlong (q : Pass τ R) (f : σ → τ) (p : Pass σ R) : Prop where
  start : q.start = p.start
  combine : q.combine = p.combine
  decided : q.decided = p.decided
  symbol : ∀ s, q.symbol (f s) = p.symbol s
  rule : ∀ i : Item σ, q.rule (i.map f) = p.rule i
  onVisit : ∀ (i : Item σ) (r : R), q.onVisit (i.map f) r = p.onVisit i r

variable {f} {p : Pass σ R} {q : Pass τ R}

theorem AgreesAlong.visitAll (h : q.AgreesAlong f p) {α : Type} (visit : α → R) (acc : R)
    (l : List α) : q.visitAll visit acc l = p.visitAll visit acc l := by
  induction l generalizing acc with
  | nil => rfl
  | cons x rest ih => simp only [Pass.visitAll, h.combine, h.decided, ih]

/-- **Passes that agree have the same result.** -/
theorem AgreesAlong.visit_map (h : q.AgreesAlong f p) (i : Item σ) :
    q.visit (i.map f) = p.visit i := by
  induction i using Item.induction with
  | step i ih =>
    have through (acc : R) {l : List (Item σ)} (hl : ∀ c ∈ l, c ∈ i.children) :
        q.visitAll q.visit acc (l.map (Item.map f)) = p.visitAll p.visit acc l := by
      rw [visitAll_map, h.visitAll]
      exact visitAll_congr p (fun c hc => ih c (hl c hc)) acc
    rw [visit_eq, visit_eq, h.onVisit, h.rule, Item.named?_map, Item.children_map,
      ← List.map_take, ← List.map_drop, h.start]
    cases p.rule i with
    | usual =>
      cases i.named? with
      | none => exact congrArg _ (through _ fun c hc => hc)
      | some s => exact congrArg _ (h.symbol s)
    | answer r => rfl
    | firstPart lead => exact congrArg _ (through lead fun c hc => List.mem_of_mem_take hc)
    | laterParts lead => exact congrArg _ (through lead fun c hc => List.mem_of_mem_drop hc)

end Pass

/-! ### Literals -/

namespace Expr

theorem unwrap_map (e : Expr σ) : (e.map f).unwrap = e.unwrap.map f := by
  fun_induction unwrap e with
  | case1 operand ih => rw [map, unwrap, ih]
  | case2 e h =>
    cases e with
    | parens operand => exact absurd rfl (h operand)
    | typeParamInquiry parameter base => cases base <;> simp [map, unwrap]
    | _ => simp [map, unwrap]

theorem scalarValue?_map (e : Expr σ) : (e.map f).scalarValue? = e.scalarValue? := by
  rw [scalarValue?, unwrap_map, scalarValue?]
  cases e.unwrap with
  | typeParamInquiry parameter base => cases base <;> simp [map]
  | _ => simp [map]

theorem integerValue?_map (e : Expr σ) : (e.map f).integerValue? = e.integerValue? := by
  rw [integerValue?, unwrap_map, integerValue?]
  cases e.unwrap with
  | typeParamInquiry parameter base => cases base <;> simp [map]
  | _ => simp [map]

theorem isOperation_map (e : Expr σ) : (e.map f).isOperation = e.isOperation := by
  cases e with
  | typeParamInquiry parameter base => cases base <;> simp [map, isOperation]
  | _ => simp [map, isOperation]

end Expr

@[simp] theorem Procedure.isIntrinsic_map (name : String) (p : Procedure σ) :
    (p.map f).isIntrinsic name = p.isIntrinsic name := by
  cases p <;> rfl

@[simp] theorem DataRef.lastSymbol_map (ref : DataRef σ) :
    (ref.map f).lastSymbol = f ref.lastSymbol := by
  cases ref <;> simp [DataRef.map, DataRef.lastSymbol]

/-! ### Ranks -/

section Rank

variable {f : Symbol → Symbol}

mutual

/-- **The rank of an expression** over symbols of the same ranks. -/
theorem Expr.rank_map (h : ∀ s, (f s).rank = s.rank) : ∀ e : Expr Symbol, (e.map f).rank = e.rank
  | .entity ref => by rw [Expr.map, Expr.rank, Expr.rank, DataRef.rank_map h ref]
  | .constant _ | .boz _ | .nullPointer | .staticData _ _ => by rw [Expr.map]
  | .designator _ | .structureConstructor _ _ _ | .descriptorInquiry _ _ _ => by
    simp [Expr.map, Expr.rank]
  | .call _ _ _ | .arrayConstructor _ _ => by rw [Expr.map, Expr.rank, Expr.rank]
  | .unary _ _ operand | .parens operand => by
    rw [Expr.map, Expr.rank, Expr.rank, Expr.rank_map h operand]
  | .binary _ _ left right | .relational _ left right => by
    rw [Expr.map, Expr.rank, Expr.rank, Expr.rank_map h left, Expr.rank_map h right]
  | .arrayRef (.symbol _) subscripts => by
    rw [Expr.map, DataRef.map, Expr.rank, Expr.rank, Subscript.ranks_map h subscripts]
  | .arrayRef (.component base _) subscripts => by
    rw [Expr.map, DataRef.map, Expr.rank, Expr.rank, Expr.rank_map h base,
      Subscript.ranks_map h subscripts]
  | .coindexed base [] _ _ _ => by rw [Expr.map, List.map_nil, Expr.rank, Expr.rank, h base]
  | .coindexed _ (s :: rest) _ _ _ => by
    have hranks := Subscript.ranks_map h (s :: rest)
    rw [List.map_cons] at hranks
    rw [Expr.map, List.map_cons, Expr.rank, Expr.rank, hranks] <;> exact nofun
  | .substring parent _ _ => by rw [Expr.map, Expr.rank, Expr.rank, Expr.rank_map h parent]
  | .complexPart complex _ => by rw [Expr.map, Expr.rank, Expr.rank, Expr.rank_map h complex]
  | .typeParamInquiry _ base => by cases base <;> simp [Expr.map, Expr.rank]

/-- The rank of a name or a component over symbols of the same ranks. -/
theorem DataRef.rank_map (h : ∀ s, (f s).rank = s.rank) :
    ∀ ref : DataRef Symbol, (ref.map f).rank = ref.rank
  | .symbol s => by rw [DataRef.map, DataRef.rank, DataRef.rank, h s]
  | .component base c => by
    rw [DataRef.map, DataRef.rank, DataRef.rank, Expr.rank_map h base, h c]

/-- A subscript over symbols of the same ranks keeps as many dimensions. -/
theorem Subscript.rank_map (h : ∀ s, (f s).rank = s.rank) :
    ∀ s : Subscript Symbol, (s.map f).rank = s.rank
  | .element e => by rw [Subscript.map, Subscript.rank, Subscript.rank, Expr.rank_map h e]
  | .triplet _ => by rw [Subscript.map, Subscript.rank, Subscript.rank]

/-- So do subscripts together. -/
theorem Subscript.ranks_map (h : ∀ s, (f s).rank = s.rank) :
    ∀ subscripts : List (Subscript Symbol),
      (subscripts.map fun s => s.map f).map (fun s => s.rank) = subscripts.map fun s => s.rank
  | [] => rfl
  | s :: rest => by
    rw [List.map_cons, List.map_cons, List.map_cons, Subscript.rank_map h s,
      Subscript.ranks_map h rest]

end

end Rank

/-! ### Texts -/

section Text

variable {f : Symbol → Symbol}

theorem Procedure.name_map (h : ∀ s, (f s).name = s.name) (p : Procedure Symbol) :
    (p.map f).name = p.name := by
  cases p with
  | user s => exact h s
  | intrinsic name => rfl

mutual

/-- **The text of an expression** over symbols of the same names. -/
theorem Expr.text_map (h : ∀ s, (f s).name = s.name) : ∀ e : Expr Symbol, (e.map f).text = e.text
  | .entity ref => by rw [Expr.map, Expr.text, Expr.text, DataRef.text_map h ref]
  | .constant _ | .boz _ | .nullPointer | .staticData _ _ => by rw [Expr.map]
  | .designator proc => by rw [Expr.map, Expr.text, Expr.text, Procedure.name_map h]
  | .call proc args _ => by
    have hargs : args.map (fun a => (a.map f).text) = args.map fun a => a.text :=
      List.map_congr_left fun a _ => Slot.text_map h a
    rw [Expr.map, Expr.text, Expr.text, Procedure.name_map h, List.map_map]
    exact congrArg (fun items => _ ++ joinList items ++ _) hargs
  | .unary op _ operand => by
    cases op <;>
      simp only [Expr.map, Expr.text, Expr.asOperand, Expr.isOperation_map, Expr.text_map h operand]
  | .binary _ _ left right | .relational _ left right => by
    simp only [Expr.map, Expr.text, Expr.asOperand, Expr.isOperation_map, Expr.text_map h left,
      Expr.text_map h right]
  | .parens operand => by rw [Expr.map, Expr.text, Expr.text, Expr.text_map h operand]
  | .arrayRef base subscripts => by
    have hsubscripts : subscripts.map (fun s => (s.map f).text) = subscripts.map fun s => s.text :=
      List.map_congr_left fun s _ => Subscript.text_map h s
    rw [Expr.map, Expr.text, Expr.text, DataRef.text_map h base, List.map_map]
    exact congrArg (fun items => _ ++ joinList items ++ _) hsubscripts
  | .coindexed base subscripts cosubscripts stat team => by
    have hsubscripts : subscripts.map (fun s => (s.map f).text) = subscripts.map fun s => s.text :=
      List.map_congr_left fun s _ => Subscript.text_map h s
    have hcosubscripts : cosubscripts.map (fun e => (e.map f).text) =
        cosubscripts.map fun e => e.text :=
      List.map_congr_left fun e _ => Expr.text_map h e
    simp only [Expr.map, Expr.text, h base, List.map_map, Function.comp_def, hsubscripts,
      hcosubscripts, List.isEmpty_map, Slot.textAfter_map h _ stat, Slot.textAfter_map h _ team]
  | .substring parent lower upper => by
    rw [Expr.map, Expr.text, Expr.text, Expr.text_map h parent, Slot.text_map h lower,
      Slot.text_map h upper]
  | .complexPart complex _ => by rw [Expr.map, Expr.text, Expr.text, Expr.text_map h complex]
  | .arrayConstructor _ values => by
    have hvalues : values.map (fun v => (v.map f).text) = values.map fun v => v.text :=
      List.map_congr_left fun v _ => ArrayItem.text_map h v
    rw [Expr.map, Expr.text, Expr.text, List.map_map]
    exact congrArg (fun items => _ ++ joinList items ++ _) hvalues
  | .structureConstructor _ parameters components => by
    have hparameters : parameters.map (fun p => (p.map f).text) = parameters.map fun p => p.text :=
      List.map_congr_left fun p _ => ParamSetting.text_map h p
    have hcomponents : components.map (fun c => (c.map f).text) = components.map fun c => c.text :=
      List.map_congr_left fun c _ => ComponentValue.text_map h c
    simp only [Expr.map, Expr.text, List.map_map, Function.comp_def, hparameters, hcomponents,
      List.isEmpty_map]
  | .typeParamInquiry parameter none => by
    rw [Expr.map, Expr.text, Expr.text, h parameter]
  | .typeParamInquiry parameter (some base) => by
    rw [Expr.map, Expr.text, Expr.text, h parameter, DataRef.text_map h base]
  | .descriptorInquiry base _ _ => by
    rw [Expr.map, Expr.text, Expr.text, DataRef.text_map h base]

/-- The text of a name or a component over symbols of the same names. -/
theorem DataRef.text_map (h : ∀ s, (f s).name = s.name) :
    ∀ ref : DataRef Symbol, (ref.map f).text = ref.text
  | .symbol s => by rw [DataRef.map, DataRef.text, DataRef.text, h s]
  | .component base c => by
    rw [DataRef.map, DataRef.text, DataRef.text, Expr.text_map h base, h c]

/-- The text of a slot over symbols of the same names. -/
theorem Slot.text_map (h : ∀ s, (f s).name = s.name) : ∀ s : Slot Symbol, (s.map f).text = s.text
  | .empty => by rw [Slot.map]
  | .filled e => by rw [Slot.map, Slot.text, Slot.text, Expr.text_map h e]

/-- The text of a filled slot after a mark, over symbols of the same names. -/
theorem Slot.textAfter_map (h : ∀ s, (f s).name = s.name) (mark : String) :
    ∀ s : Slot Symbol, (s.map f).textAfter mark = s.textAfter mark
  | .empty => by rw [Slot.map]
  | .filled e => by rw [Slot.map, Slot.textAfter, Slot.textAfter, Expr.text_map h e]

/-- The text of a section over symbols of the same names. -/
theorem Triplet.text_map (h : ∀ s, (f s).name = s.name) :
    ∀ t : Triplet Symbol, (t.map f).text = t.text
  | ⟨lower, upper, stride⟩ => by
    rw [Triplet.map, Triplet.text, Triplet.text, Slot.text_map h lower, Slot.text_map h upper,
      Slot.textAfter_map h "" stride]

/-- The text of a subscript over symbols of the same names. -/
theorem Subscript.text_map (h : ∀ s, (f s).name = s.name) :
    ∀ s : Subscript Symbol, (s.map f).text = s.text
  | .element e => by rw [Subscript.map, Subscript.text, Subscript.text, Expr.text_map h e]
  | .triplet t => by rw [Subscript.map, Subscript.text, Subscript.text, Triplet.text_map h t]

/-- The text of an item of an array constructor over symbols of the same names. -/
theorem ArrayItem.text_map (h : ∀ s, (f s).name = s.name) :
    ∀ a : ArrayItem Symbol, (a.map f).text = a.text
  | .expr e => by rw [ArrayItem.map, ArrayItem.text, ArrayItem.text, Expr.text_map h e]
  | .impliedDo loop => by
    rw [ArrayItem.map, ArrayItem.text, ArrayItem.text, ImpliedDo.text_map h loop]

/-- The text of a loop over symbols of the same names. -/
theorem ImpliedDo.text_map (h : ∀ s, (f s).name = s.name) :
    ∀ loop : ImpliedDo Symbol, (loop.map f).text = loop.text
  | ⟨index, lower, upper, stride, values⟩ => by
    have hvalues : values.map (fun v => (v.map f).text) = values.map fun v => v.text :=
      List.map_congr_left fun v _ => ArrayItem.text_map h v
    simp only [ImpliedDo.map, ImpliedDo.text, h index, List.map_map, Function.comp_def, hvalues,
      Expr.text_map h lower, Expr.text_map h upper, Slot.textAfter_map h "" stride]

/-- The text of the value of a type parameter over symbols of the same names. -/
theorem ParamValue.text_map (h : ∀ s, (f s).name = s.name) :
    ∀ v : ParamValue Symbol, (v.map f).text = v.text
  | .explicit e => by rw [ParamValue.map, ParamValue.text, ParamValue.text, Expr.text_map h e]
  | .assumed | .deferred => by rw [ParamValue.map]

/-- The text of the setting of a type parameter over symbols of the same names. -/
theorem ParamSetting.text_map (h : ∀ s, (f s).name = s.name) :
    ∀ p : ParamSetting Symbol, (p.map f).text = p.text
  | ⟨name, value⟩ => by
    rw [ParamSetting.map, ParamSetting.text, ParamSetting.text, ParamValue.text_map h value]

/-- The text of the value of a component over symbols of the same names. -/
theorem ComponentValue.text_map (h : ∀ s, (f s).name = s.name) :
    ∀ c : ComponentValue Symbol, (c.map f).text = c.text
  | ⟨component, value⟩ => by
    rw [ComponentValue.map, ComponentValue.text, ComponentValue.text, Expr.text_map h value]

end

end Text

end FortranExpr
