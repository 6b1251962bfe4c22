/-
# Written expressions read back

Every node is read back when its parts are, one lemma for each kind of node.  So by induction
an expression is read back when every item in it can be written (`Item.IsExpressible`):

| item | can be written when |
| --- | --- |
| anything | its symbols have ids |
| a literal | its values are JSON values, and fill a shape whose size is computed exactly |
| a bit pattern | it is not negative |
| a call, a read of a descriptor field | its rank, its dimension is a whole number that is not negative |
| a structure constructor | it names nothing twice, and nothing by an array index |
-/

import FortranExpr.Proofs.Expr.Mention
import FortranExpr.Proofs.Fixture.ReadBack
import FortranExpr.Proofs.Number.Exact
import FortranExpr.Proofs.Number.Hexadecimal
import Mathlib.Data.List.Nodup

namespace FortranExpr

open Read (bind_eq_ok map_eq_ok items_map_eq_ok mapM_eq_ok)

variable {ids : SymbolIds}

/-- A value that JSON has: no integer of unlimited size, and no number that is not finite. -/
def Value.IsJson : Value → Prop
  | .number x => ∃ q, x = .finite q
  | .integer _ => False
  | .characters _ | .logical _ => True

/-- A literal that can be written: a scalar, or values that fill a shape of whole extents.  The
size of the shape is to be exact at every step. -/
structure Constant.IsExpressible (c : Constant) : Prop where
  values : ∀ v ∈ c.values, v.IsJson
  fills : c.shape = [] ∧ c.values.length = 1 ∨
    ∃ extents : List Nat, extents ≠ [] ∧ c.shape = extents.map (fun n => .finite n) ∧
      extents.prod = c.values.length ∧ ∀ k, (extents.take k).prod ≤ 2 ^ 53

namespace Node

variable (path : Path)

/-- A value that JSON can hold is read back. -/
theorem literalValue_eq_ok {value : Value} (h : value.IsJson) :
    literalValue (some value.toJson) path = .ok value := by
  cases value with
  | integer => cases h
  | _ => rfl

/-- An extent is read back. -/
theorem extent_eq_ok (n : Nat) : extent (.num (.finite n)) path = .ok (.finite n) := by
  rw [extent, if_pos (Binary64.isCount_finite n)]

/-- **A literal is read back,** whatever its shape. -/
theorem constant_eq_ok {c : Constant} (h : c.IsExpressible) :
    constant (.node .constant c.members) path = .ok c := by
  obtain ⟨category, values, shape⟩ := c
  have htype : (Json.node .constant (Constant.members ⟨category, values, shape⟩)).get? "type" =
      some (.str (Vocabulary.word category)) := by
    cases shape <;> rfl
  refine bind_eq_ok (Field.word_eq_ok htype) ?_
  rcases h.fills with ⟨hshape, hlength⟩ | ⟨extents, hne, hshape, hprod, hbound⟩
  · obtain rfl : shape = [] := hshape
    obtain ⟨value, rfl⟩ := List.length_eq_one_iff.1 hlength
    have hvalue := h.values value List.mem_cons_self
    exact bind_eq_ok (literalValue_eq_ok _ hvalue) rfl
  · obtain rfl : shape = extents.map fun n => .finite n := hshape
    obtain ⟨n, rest, rfl⟩ := List.exists_cons_of_ne_nil hne
    have hvalues : Read.items (path.member "values") (fun v p => literalValue (some v) p)
        (values.map Value.toJson) = .ok values :=
      items_map_eq_ok fun v hv p => literalValue_eq_ok p (h.values v hv)
    have hextents : Read.items (path.member "shape") extent
        (((n :: rest).map fun n : Nat => Binary64.finite n).map Json.num) =
        .ok ((n :: rest).map fun n : Nat => .finite n) :=
      items_map_eq_ok fun x hx p => by
        obtain ⟨m, _, rfl⟩ := List.mem_map.1 hx
        exact extent_eq_ok p m
    have hsize : ((n :: rest).map fun n : Nat => Binary64.finite n).foldl (· * ·) 1 =
        .ofNat values.length :=
      hprod ▸ Binary64.foldl_mul_eq_ofNat hbound
    refine bind_eq_ok (Field.array_eq_ok rfl) (bind_eq_ok hvalues ?_)
    refine bind_eq_ok (Field.array_eq_ok rfl) (bind_eq_ok hextents ?_)
    exact if_pos hsize

variable {path}

/-- A procedure is read back from any record with its members. -/
theorem procedure_eq_ok {proc : Procedure Symbol} (h : proc.item.ReadsBack ids) {record : Json}
    (hintrinsic : record.get? "intrinsic" = (Json.obj (proc.members ids.idOf)).get? "intrinsic")
    (hsymbol : record.get? "symbol" = (Json.obj (proc.members ids.idOf)).get? "symbol") :
    procedure ids record path = .ok proc := by
  rw [procedure, hintrinsic]
  cases proc with
  | user s => exact map_eq_ok (SymbolIds.field_eq_ok hsymbol h) Procedure.user
  | intrinsic n => rfl

end Node

namespace Expr

open Readers

/-- A name reads back when its symbol is declared. -/
theorem readsBack_symbol {s : Symbol} (h : (Item.symbol s).ReadsBack ids) :
    (Item.expr (.entity (.symbol s))).ReadsBack ids := by
  intro path
  rw [toJson, DataRef.toJson, readExpr]
  refine Field.node_bind_eq_ok rfl ?_
  exact map_eq_ok (SymbolIds.field_eq_ok rfl h) fun s => entity (.symbol s)

/-- A component reads back when its base and its symbol do. -/
theorem readsBack_component {base : Expr Symbol} {c : Symbol}
    (hbase : (Item.expr base).ReadsBack ids) (hc : (Item.symbol c).ReadsBack ids) :
    (Item.expr (.entity (.component base c))).ReadsBack ids := by
  intro path
  rw [toJson, DataRef.toJson, readExpr]
  refine Field.node_bind_eq_ok rfl ?_
  refine bind_eq_ok (required_eq_ok path rfl hbase) ?_
  exact bind_eq_ok (SymbolIds.field_eq_ok rfl hc) rfl

/-- A literal reads back in whichever form it is written. -/
theorem readsBack_constant {c : Constant} (h : c.IsExpressible) :
    (Item.expr (.constant c)).ReadsBack ids := by
  intro path
  have hnode : (Json.obj c.members).get? "node" = none := by
    obtain ⟨category, values, shape⟩ := c
    cases shape <;> rfl
  rw [toJson, readExpr]
  refine Field.node_bind_eq_ok hnode ?_
  exact map_eq_ok (Node.constant_eq_ok path h) Expr.constant

/-- A constant without a type is written in hexadecimal digits, for which it has to be no
negative number. -/
theorem readsBack_boz {bits : Int} (h : 0 ≤ bits) : (Item.expr (.boz bits)).ReadsBack ids := by
  intro path
  rw [toJson, readExpr]
  refine Field.node_bind_eq_ok rfl ?_
  have hread : Node.boz (.node .boz [("value", .str (.ofList (Hexadecimal.digits bits.toNat)))])
      path = .ok bits.toNat := by
    refine bind_eq_ok (Field.string_eq_ok rfl) ?_
    rw [String.toList_ofList, Hexadecimal.read?_digits]
    rfl
  have hbits : ((bits.toNat : Nat) : Int) = bits := Int.toNat_of_nonneg h
  have hcast := bind_eq_ok hread (k := fun n => pure (n : Int)) rfl
  exact (map_eq_ok hcast Expr.boz).trans (by rw [hbits])

theorem readsBack_designator {proc : Procedure Symbol} (h : proc.item.ReadsBack ids) :
    (Item.expr (.designator proc)).ReadsBack ids := by
  intro path
  have hnode : (Json.obj (proc.members ids.idOf)).get? "node" = none := by
    cases proc <;> rfl
  have hprocedure : Node.procedure ids (.node .procedure (proc.members ids.idOf)) path =
      .ok proc :=
    Node.procedure_eq_ok h (by cases proc <;> rfl) (by cases proc <;> rfl)
  rw [toJson, readExpr]
  refine Field.node_bind_eq_ok hnode ?_
  exact map_eq_ok hprocedure Expr.designator

/-- A call reads back, its absent arguments as `null`. -/
theorem readsBack_call {proc : Procedure Symbol} {args : List (Slot Symbol)} {rank : Binary64}
    (hproc : proc.item.ReadsBack ids) (hargs : ∀ a ∈ args, a.item.ReadsBack ids)
    (hrank : rank.isCount = true) : (Item.expr (.call proc args rank)).ReadsBack ids := by
  intro path
  rw [toJson, readExpr]
  refine Field.node_bind_eq_ok rfl ?_
  refine bind_eq_ok rfl (bind_eq_ok (Node.procedure_eq_ok hproc rfl rfl) ?_)
  refine bind_eq_ok (list_eq_ok path (fun v => (ids.readers v).slot) rfl
    fun a ha => slot_isReadAs (hargs a ha)) ?_
  exact bind_eq_ok (Field.count_eq_ok rfl hrank) rfl

theorem readsBack_unary {op : UnaryOp} {category : TypeCategory} {operand : Expr Symbol}
    (h : (Item.expr operand).ReadsBack ids) :
    (Item.expr (.unary op category operand)).ReadsBack ids := by
  intro path
  rw [toJson, readExpr]
  refine Field.node_bind_eq_ok rfl ?_
  refine bind_eq_ok (Field.word_eq_ok rfl) (bind_eq_ok (Field.word_eq_ok rfl) ?_)
  exact bind_eq_ok (required_eq_ok path rfl h) rfl

theorem readsBack_binary {op : BinaryOp} {category : TypeCategory} {left right : Expr Symbol}
    (hleft : (Item.expr left).ReadsBack ids) (hright : (Item.expr right).ReadsBack ids) :
    (Item.expr (.binary op category left right)).ReadsBack ids := by
  intro path
  rw [toJson, readExpr]
  refine Field.node_bind_eq_ok rfl ?_
  refine bind_eq_ok (Field.word_eq_ok rfl) (bind_eq_ok (Field.word_eq_ok rfl) ?_)
  refine bind_eq_ok (required_eq_ok path rfl hleft) ?_
  exact bind_eq_ok (required_eq_ok path rfl hright) rfl

/-- Parentheses are a node of their own, so they read back. -/
theorem readsBack_parens {operand : Expr Symbol} (h : (Item.expr operand).ReadsBack ids) :
    (Item.expr (.parens operand)).ReadsBack ids := by
  intro path
  rw [toJson, readExpr]
  refine Field.node_bind_eq_ok rfl ?_
  exact map_eq_ok (required_eq_ok path rfl h) Expr.parens

theorem readsBack_relational {op : RelationalOp} {left right : Expr Symbol}
    (hleft : (Item.expr left).ReadsBack ids) (hright : (Item.expr right).ReadsBack ids) :
    (Item.expr (.relational op left right)).ReadsBack ids := by
  intro path
  rw [toJson, readExpr]
  refine Field.node_bind_eq_ok rfl ?_
  refine bind_eq_ok (Field.word_eq_ok rfl) ?_
  refine bind_eq_ok (required_eq_ok path rfl hleft) ?_
  exact bind_eq_ok (required_eq_ok path rfl hright) rfl

theorem readsBack_arrayRef {base : DataRef Symbol} {subscripts : List (Subscript Symbol)}
    (hbase : (Item.expr (.entity base)).ReadsBack ids)
    (hsubscripts : ∀ s ∈ subscripts, (Item.subscript s).ReadsBack ids) :
    (Item.expr (.arrayRef base subscripts)).ReadsBack ids := by
  intro path
  rw [toJson, readExpr]
  refine Field.node_bind_eq_ok rfl ?_
  refine bind_eq_ok (dataRef_eq_ok path rfl hbase) ?_
  exact bind_eq_ok (list_eq_ok path (fun v => (ids.readers v).subscript) rfl hsubscripts) rfl

/-- A coindexed reference reads back, with or without its two specifiers. -/
theorem readsBack_coindexed {base : Symbol} {subscripts : List (Subscript Symbol)}
    {cosubscripts : List (Expr Symbol)} {stat team : Slot Symbol}
    (hbase : (Item.symbol base).ReadsBack ids)
    (hsubscripts : ∀ s ∈ subscripts, (Item.subscript s).ReadsBack ids)
    (hcosubscripts : ∀ e ∈ cosubscripts, (Item.expr e).ReadsBack ids)
    (hstat : stat.item.ReadsBack ids) (hteam : team.item.ReadsBack ids) :
    (Item.expr (.coindexed base subscripts cosubscripts stat team)).ReadsBack ids := by
  intro path
  rw [toJson, readExpr]
  refine Field.node_bind_eq_ok rfl ?_
  refine bind_eq_ok (SymbolIds.field_eq_ok rfl hbase) ?_
  refine bind_eq_ok (list_eq_ok path (fun v => (ids.readers v).subscript) rfl hsubscripts) ?_
  refine bind_eq_ok (list_eq_ok path (fun v => (ids.readers v).expr) rfl
    fun e he => expr_isReadAs (hcosubscripts e he)) ?_
  refine bind_eq_ok (optional_eq_ok path rfl hstat) ?_
  exact bind_eq_ok (optional_eq_ok path rfl hteam) rfl

/-- A substring reads back, with or without its bounds. -/
theorem readsBack_substring {parent : Expr Symbol} {lower upper : Slot Symbol}
    (hparent : (Item.expr parent).ReadsBack ids) (hlower : lower.item.ReadsBack ids)
    (hupper : upper.item.ReadsBack ids) :
    (Item.expr (.substring parent lower upper)).ReadsBack ids := by
  intro path
  rw [toJson, readExpr]
  refine Field.node_bind_eq_ok rfl ?_
  refine bind_eq_ok (required_eq_ok path rfl hparent) ?_
  refine bind_eq_ok (optional_eq_ok path rfl hlower) ?_
  exact bind_eq_ok (optional_eq_ok path rfl hupper) rfl

theorem readsBack_complexPart {complex : Expr Symbol} {part : ComplexPart}
    (h : (Item.expr complex).ReadsBack ids) :
    (Item.expr (.complexPart complex part)).ReadsBack ids := by
  intro path
  cases part with
  | re | im =>
    rw [toJson, readExpr]
    refine Field.node_bind_eq_ok rfl ?_
    exact bind_eq_ok (required_eq_ok path rfl h) rfl

theorem readsBack_arrayConstructor {category : TypeCategory} {values : List (ArrayItem Symbol)}
    (h : ∀ v ∈ values, v.item.ReadsBack ids) :
    (Item.expr (.arrayConstructor category values)).ReadsBack ids := by
  intro path
  rw [toJson, readExpr]
  refine Field.node_bind_eq_ok rfl ?_
  refine bind_eq_ok (Field.word_eq_ok rfl) ?_
  exact bind_eq_ok (list_eq_ok path (fun v => (ids.readers v).arrayItem) rfl
    fun a ha => arrayItem_isReadAs (h a ha)) rfl

/-- An inquiry reads back, about a type or about an object. -/
theorem readsBack_typeParamInquiry {parameter : Symbol} {base : Option (DataRef Symbol)}
    (hparameter : (Item.symbol parameter).ReadsBack ids)
    (hbase : ∀ ref, base = some ref → (Item.expr (.entity ref)).ReadsBack ids) :
    (Item.expr (.typeParamInquiry parameter base)).ReadsBack ids := by
  intro path
  cases base with
  | none =>
    rw [toJson, readExpr]
    refine Field.node_bind_eq_ok rfl ?_
    exact bind_eq_ok (SymbolIds.field_eq_ok rfl hparameter) rfl
  | some ref =>
    rw [toJson, readExpr]
    refine Field.node_bind_eq_ok rfl ?_
    refine bind_eq_ok (SymbolIds.field_eq_ok rfl hparameter) ?_
    exact bind_eq_ok (dataRef_eq_ok path rfl (hbase ref rfl)) rfl

/-- A read of a descriptor reads back, when its dimension is a count. -/
theorem readsBack_descriptorInquiry {base : DataRef Symbol} {field : DescriptorField}
    {dimension : Binary64} (hbase : (Item.expr (.entity base)).ReadsBack ids)
    (hdimension : dimension.isCount = true) :
    (Item.expr (.descriptorInquiry base field dimension)).ReadsBack ids := by
  intro path
  rw [toJson, readExpr]
  refine Field.node_bind_eq_ok rfl ?_
  refine bind_eq_ok (dataRef_eq_ok path rfl hbase) ?_
  refine bind_eq_ok Field.wordOf_eq_ok ?_
  exact bind_eq_ok (Field.count_eq_ok rfl hdimension) rfl

theorem readsBack_impliedDo {loop : ImpliedDo Symbol}
    (hindex : (Item.symbol loop.index).ReadsBack ids)
    (hlower : (Item.expr loop.lower).ReadsBack ids)
    (hupper : (Item.expr loop.upper).ReadsBack ids) (hstride : loop.stride.item.ReadsBack ids)
    (hvalues : ∀ v ∈ loop.values, v.item.ReadsBack ids) :
    (Item.impliedDo loop).ReadsBack ids := by
  intro path
  obtain ⟨index, lower, upper, stride, values⟩ := loop
  rw [ImpliedDo.toJson, readLoop]
  refine bind_eq_ok rfl ?_
  refine bind_eq_ok (SymbolIds.field_eq_ok rfl hindex) ?_
  refine bind_eq_ok (required_eq_ok path rfl hlower) ?_
  refine bind_eq_ok (required_eq_ok path rfl hupper) ?_
  refine bind_eq_ok (optional_eq_ok path rfl hstride) ?_
  exact bind_eq_ok (list_eq_ok path (fun v => (ids.readers v).arrayItem) rfl
    fun a ha => arrayItem_isReadAs (hvalues a ha)) rfl

/-- A structure constructor whose members keep their order. -/
structure KeepsOrder (ids : SymbolIds) (parameters : List (ParamSetting Symbol))
    (components : List (ComponentValue Symbol)) : Prop where
  parameters_nodup : (parameters.map ParamSetting.name).Nodup
  parameters_name : ∀ p ∈ parameters, Json.arrayIndex? p.name = none
  components_nodup : (components.map ComponentValue.component).Nodup
  components_id : ∀ c ∈ components,
    ∃ id, ids.get? id = some c.component ∧ Json.arrayIndex? id = none

namespace KeepsOrder

variable {parameters : List (ParamSetting Symbol)} {components : List (ComponentValue Symbol)}
  (h : KeepsOrder ids parameters components)
include h

/-- Different names of parameters are different keys. -/
theorem nodup_parameters :
    ((parameters.map fun p => p.member ids.idOf).map Prod.fst).Nodup := by
  have hnames : (parameters.map fun p => p.member ids.idOf).map Prod.fst =
      parameters.map ParamSetting.name := by
    rw [List.map_map]
    exact List.map_congr_left fun p _ => p.fst_member ids.idOf
  exact hnames ▸ h.parameters_nodup

/-- No name of a parameter is an array index, so their order is kept. -/
theorem parameters_arrayIndex? :
    ∀ e ∈ parameters.map (fun p => p.member ids.idOf), Json.arrayIndex? e.1 = none :=
  List.forall_mem_map.2 fun p hp => (p.fst_member ids.idOf).symm ▸ h.parameters_name p hp

/-- The components are declared, so their ids lead back to them. -/
theorem get?_idOf {s : Symbol} (hs : s ∈ components.map ComponentValue.component) :
    ids.get? (ids.idOf s) = some s := by
  obtain ⟨c, hc, rfl⟩ := List.mem_map.1 hs
  obtain ⟨id, hid, _⟩ := h.components_id c hc
  exact SymbolIds.get?_idOf (OrderedMap.mem_values_of_get? hid)

/-- Different components have different ids. -/
theorem nodup_components :
    ((components.map fun c => c.member ids.idOf).map Prod.fst).Nodup := by
  have hids : (components.map fun c => c.member ids.idOf).map Prod.fst =
      (components.map ComponentValue.component).map ids.idOf := by
    rw [List.map_map, List.map_map]
    exact List.map_congr_left fun c _ => c.fst_member ids.idOf
  rw [hids]
  refine h.components_nodup.map_on fun s hs t ht hst => ?_
  have hsome : some s = some t := by rw [← h.get?_idOf hs, ← h.get?_idOf ht, hst]
  exact Option.some.inj hsome

/-- No id of a component is an array index, so their order is kept. -/
theorem components_arrayIndex? :
    ∀ e ∈ components.map (fun c => c.member ids.idOf), Json.arrayIndex? e.1 = none :=
  List.forall_mem_map.2 fun c hc =>
    (c.fst_member ids.idOf).symm ▸ SymbolIds.arrayIndex?_idOf (h.components_id c hc)

end KeepsOrder

/-- **A structure constructor is read back,** its members in the order they are written. -/
theorem readsBack_structureConstructor {type : String} {parameters : List (ParamSetting Symbol)}
    {components : List (ComponentValue Symbol)} (horder : KeepsOrder ids parameters components)
    (hparameters : ∀ p ∈ parameters, (Item.param p.value).ReadsBack ids)
    (hcomponents : ∀ c ∈ components, (Item.expr c.value).ReadsBack ids) :
    (Item.expr (.structureConstructor type parameters components)).ReadsBack ids := by
  intro path
  rw [toJson, readExpr]
  refine Field.node_bind_eq_ok rfl ?_
  refine bind_eq_ok (Field.string_eq_ok rfl) ?_
  refine members_bind_eq_ok path rfl horder.nodup_parameters horder.parameters_arrayIndex?
    fun settings hsettings => ?_
  refine bind_eq_ok (mapM_eq_ok (forall₂_of_map_eq hsettings) ?_) ?_
  · rintro ⟨n, value⟩ hp ⟨key, w⟩ hmember
    rw [ParamSetting.member] at hmember
    obtain ⟨rfl, hw⟩ := Prod.mk.inj hmember
    exact bind_eq_ok (hparameters _ hp _ w hw _) rfl
  refine members_bind_eq_ok path rfl horder.nodup_components horder.components_arrayIndex?
    fun values hvalues => ?_
  refine bind_eq_ok (mapM_eq_ok (forall₂_of_map_eq hvalues) ?_) rfl
  rintro ⟨component, value⟩ hc ⟨key, w⟩ hmember
  rw [ComponentValue.member] at hmember
  obtain ⟨rfl, hw⟩ := Prod.mk.inj hmember
  have hcomponent := horder.get?_idOf (List.mem_map_of_mem hc)
  have hresolve (p : Path) : ids.resolve (ids.idOf component) p = .ok component := by
    rw [SymbolIds.resolve, hcomponent]
  exact bind_eq_ok (hresolve _) (bind_eq_ok (expr_isReadAs (hcomponents _ hc) _ w hw _) rfl)

end Expr

namespace Item

open Readers

/-- What keeps an item from being written, its parts apart, is not there. -/
def IsExpressible (ids : SymbolIds) (i : Item Symbol) : Prop :=
  (∀ s ∈ i.symbols, s ∈ ids.values) ∧
    match i with
    | .expr (.constant c) => c.IsExpressible
    | .expr (.boz bits) => 0 ≤ bits
    | .expr (.call _ _ rank) => rank.isCount = true
    | .expr (.descriptorInquiry _ _ dimension) => dimension.isCount = true
    | .expr (.structureConstructor _ parameters components) =>
      Expr.KeepsOrder ids parameters components
    | _ => True

/-- A procedure of an expressible node reads back. -/
theorem readsBack_procedure {proc : Procedure Symbol}
    (h : (Item.expr (.designator proc)).Everywhere (IsExpressible ids)) :
    proc.item.ReadsBack ids := by
  have hitem : proc.item.IsExpressible ids :=
    (everywhere_iff.1 ((everywhere_iff.1 h).2 proc.item List.mem_cons_self)).1
  cases proc with
  | user s => exact SymbolIds.get?_idOf (hitem.1 s List.mem_cons_self)
  | intrinsic => trivial

/-- An expression is read back when its parts are. -/
theorem readsBack_expr {e : Expr Symbol} (h : (Item.expr e).Everywhere (IsExpressible ids))
    (hread : ∀ c ∈ e.children, c.ReadsBack ids) : (Item.expr e).ReadsBack ids := by
  obtain ⟨⟨hsymbols, hlocal⟩, hparts⟩ := everywhere_iff.1 h
  cases e with
  | entity ref =>
    cases ref with
    | symbol s => exact Expr.readsBack_symbol (SymbolIds.get?_idOf (hsymbols s List.mem_cons_self))
    | component base c =>
      obtain ⟨hbase, hc⟩ := List.forall_mem_cons.1 hread
      exact Expr.readsBack_component hbase (List.forall_mem_singleton.1 hc)
  | constant c => exact Expr.readsBack_constant hlocal
  | boz bits => exact Expr.readsBack_boz hlocal
  | nullPointer =>
    intro path
    rw [Expr.toJson, readExpr]
    exact Field.node_bind_eq_ok rfl rfl
  | staticData name data =>
    intro path
    rw [Expr.toJson, readExpr]
    refine Field.node_bind_eq_ok rfl ?_
    exact bind_eq_ok (Field.string_eq_ok rfl) (bind_eq_ok (Field.string_eq_ok rfl) rfl)
  | designator proc => exact Expr.readsBack_designator (List.forall_mem_singleton.1 hread)
  | call proc args rank =>
    have hproc := readsBack_procedure (hparts _ List.mem_cons_self)
    obtain ⟨_, hargs⟩ := List.forall_mem_cons.1 hread
    exact Expr.readsBack_call hproc (List.forall_mem_map.1 hargs) hlocal
  | unary op category operand => exact Expr.readsBack_unary (List.forall_mem_singleton.1 hread)
  | binary op category left right =>
    obtain ⟨hleft, hright⟩ := List.forall_mem_cons.1 hread
    exact Expr.readsBack_binary hleft (List.forall_mem_singleton.1 hright)
  | parens operand => exact Expr.readsBack_parens (List.forall_mem_singleton.1 hread)
  | relational op left right =>
    obtain ⟨hleft, hright⟩ := List.forall_mem_cons.1 hread
    exact Expr.readsBack_relational hleft (List.forall_mem_singleton.1 hright)
  | arrayRef base subscripts =>
    obtain ⟨hbase, hsubscripts⟩ := List.forall_mem_cons.1 hread
    exact Expr.readsBack_arrayRef hbase (List.forall_mem_map.1 hsubscripts)
  | coindexed base subscripts cosubscripts stat team =>
    obtain ⟨hbase, hrest⟩ := List.forall_mem_cons.1 hread
    obtain ⟨hlists, hslots⟩ := List.forall_mem_append.1 hrest
    obtain ⟨hsubscripts, hcosubscripts⟩ := List.forall_mem_append.1 hlists
    obtain ⟨hstat, hteam⟩ := List.forall_mem_cons.1 hslots
    exact Expr.readsBack_coindexed hbase (List.forall_mem_map.1 hsubscripts)
      (List.forall_mem_map.1 hcosubscripts) hstat (List.forall_mem_singleton.1 hteam)
  | substring parent lower upper =>
    obtain ⟨hparent, hslots⟩ := List.forall_mem_cons.1 hread
    obtain ⟨hlower, hupper⟩ := List.forall_mem_cons.1 hslots
    exact Expr.readsBack_substring hparent hlower (List.forall_mem_singleton.1 hupper)
  | complexPart complex part =>
    exact Expr.readsBack_complexPart (List.forall_mem_singleton.1 hread)
  | arrayConstructor category values =>
    exact Expr.readsBack_arrayConstructor (List.forall_mem_map.1 hread)
  | structureConstructor type parameters components =>
    obtain ⟨hparameters, hcomponents⟩ := List.forall_mem_append.1 hread
    exact Expr.readsBack_structureConstructor hlocal (List.forall_mem_map.1 hparameters)
      (List.forall_mem_map.1 hcomponents)
  | typeParamInquiry parameter base =>
    have hparameter := SymbolIds.get?_idOf (hsymbols parameter List.mem_cons_self)
    refine Expr.readsBack_typeParamInquiry hparameter fun ref href => ?_
    subst href
    exact List.forall_mem_singleton.1 hread
  | descriptorInquiry base field dimension =>
    exact Expr.readsBack_descriptorInquiry (List.forall_mem_singleton.1 hread) hlocal

/-- **Every item is read back** where everything in it can be written. -/
theorem readsBack_of_everywhere {i : Item Symbol} (h : i.Everywhere (IsExpressible ids)) :
    i.ReadsBack ids := by
  induction i using Item.induction with
  | step i ih =>
    obtain ⟨⟨hsymbols, _⟩, hparts⟩ := everywhere_iff.1 h
    have hread (c : Item Symbol) (hc : c ∈ i.children) : c.ReadsBack ids := ih c hc (hparts c hc)
    cases i with
    | absent => trivial
    | symbol s => exact SymbolIds.get?_idOf (hsymbols s List.mem_cons_self)
    | expr e => exact readsBack_expr h hread
    | subscript s =>
      cases s with
      | element e => exact subscript_isReadAs_element (hread _ List.mem_cons_self)
      | triplet t => exact subscript_isReadAs_triplet (hread _ List.mem_cons_self)
    | triplet t =>
      obtain ⟨lower, upper, stride⟩ := t
      have hslots : ∀ s ∈ [lower, upper, stride], s.item.ReadsBack ids :=
        fun s hs => hread s.item (List.mem_map_of_mem (f := Slot.item) hs)
      exact fun s hs => slot_isReadAs (hslots s hs)
    | impliedDo loop =>
      obtain ⟨index, lower, upper, stride, values⟩ := loop
      have hindex := SymbolIds.get?_idOf (hsymbols index List.mem_cons_self)
      obtain ⟨hlower, hrest⟩ := List.forall_mem_cons.1 hread
      obtain ⟨hupper, hrest⟩ := List.forall_mem_cons.1 hrest
      obtain ⟨hstride, hvalues⟩ := List.forall_mem_cons.1 hrest
      exact Expr.readsBack_impliedDo hindex hlower hupper hstride (List.forall_mem_map.1 hvalues)
    | param value =>
      cases value with
      | explicit e => exact paramValue_isReadAs (hread _ List.mem_cons_self)
      | assumed => exact paramValue_isReadAs_mark (.inl rfl)
      | deferred => exact paramValue_isReadAs_mark (.inr rfl)

end Item

/-- Everything in an expression can be written. -/
def Expr.IsExpressible (ids : SymbolIds) (e : Expr Symbol) : Prop :=
  (Item.expr e).Everywhere (Item.IsExpressible ids)

/-- **Every expression that can be written is read back.** -/
theorem Expr.exists_readExpr_eq_ok {ids : SymbolIds} {e : Expr Symbol} (h : e.IsExpressible ids) :
    ∃ v : Json, ∀ path, readExpr ids v path = .ok e :=
  ⟨e.toJson ids.idOf, Item.readsBack_of_everywhere h⟩

/-- A data object of the global scope, without a value. -/
def globalObject (serial : Nat) (name : String) (rank : Binary64) : Symbol :=
  ⟨serial, name, .global, .object ⟨rank, 0, .explicit, false, none, none⟩, []⟩

/-- An array `a`, and a component `c`. -/
def arrayAndPart : SymbolIds :=
  ((∅ : SymbolIds).insert "a" (globalObject 0 "a" 1)).insert "c" (globalObject 1 "c" 0)

/-- The section `a(:2:)` of the array. -/
def openSection : Expr Symbol :=
  .arrayRef (.symbol (globalObject 0 "a" 1))
    [.triplet ⟨.empty, .filled (.constant ⟨.integer, [.number (.finite 2)], []⟩), .empty⟩]

/-- `t(k=*)(c = f(, a(:2:)))`: a mark for a parameter, and an argument left out. -/
def sparseConstructor : Expr Symbol :=
  .structureConstructor "t" [⟨"k", .assumed⟩]
    [⟨globalObject 1 "c" 0, .call (.intrinsic "f") [.empty, .filled openSection] 0⟩]

theorem isExpressible_openSection : openSection.IsExpressible arrayAndPart := by
  have habsent : (Item.absent : Item Symbol).Everywhere (Item.IsExpressible arrayAndPart) :=
    Item.everywhere_absent.2 ⟨nofun, trivial⟩
  have harray : (Item.expr (.entity (.symbol (globalObject 0 "a" 1)))).Everywhere
      (Item.IsExpressible arrayAndPart) :=
    Item.everywhere_iff.2 ⟨⟨List.forall_mem_singleton.2 List.mem_cons_self, trivial⟩, nofun⟩
  have hbound : (Item.expr (.constant ⟨.integer, [.number (.finite 2)], []⟩)).Everywhere
      (Item.IsExpressible arrayAndPart) :=
    Item.everywhere_iff.2 ⟨⟨nofun, List.forall_mem_singleton.2 ⟨2, rfl⟩, .inl ⟨rfl, rfl⟩⟩, nofun⟩
  refine Item.everywhere_iff.2 ⟨⟨nofun, trivial⟩, List.forall_mem_cons.2 ⟨harray,
    List.forall_mem_singleton.2 (Item.everywhere_iff.2 ⟨⟨nofun, trivial⟩, ?_⟩)⟩⟩
  refine List.forall_mem_singleton.2 (Item.everywhere_iff.2 ⟨⟨nofun, trivial⟩, ?_⟩)
  exact List.forall_mem_cons.2 ⟨habsent, List.forall_mem_cons.2 ⟨hbound,
    List.forall_mem_singleton.2 habsent⟩⟩

theorem isExpressible_sparseConstructor : sparseConstructor.IsExpressible arrayAndPart := by
  have habsent : (Item.absent : Item Symbol).Everywhere (Item.IsExpressible arrayAndPart) :=
    Item.everywhere_absent.2 ⟨nofun, trivial⟩
  have hmark : (Item.param (.assumed : ParamValue Symbol)).Everywhere
      (Item.IsExpressible arrayAndPart) :=
    Item.everywhere_iff.2 ⟨⟨nofun, trivial⟩, List.forall_mem_singleton.2 habsent⟩
  have hproc : (Item.expr (.designator (.intrinsic "f") : Expr Symbol)).Everywhere
      (Item.IsExpressible arrayAndPart) :=
    Item.everywhere_iff.2 ⟨⟨nofun, trivial⟩, List.forall_mem_singleton.2 habsent⟩
  have hcall : (Item.expr (.call (.intrinsic "f") [.empty, .filled openSection] 0)).Everywhere
      (Item.IsExpressible arrayAndPart) :=
    Item.everywhere_iff.2 ⟨⟨nofun, rfl⟩, List.forall_mem_cons.2 ⟨hproc,
      List.forall_mem_cons.2 ⟨habsent, List.forall_mem_singleton.2 isExpressible_openSection⟩⟩⟩
  have hid : arrayAndPart.get? "c" = some (globalObject 1 "c" 0) := rfl
  have horder : Expr.KeepsOrder arrayAndPart [⟨"k", .assumed⟩]
      [⟨globalObject 1 "c" 0, .call (.intrinsic "f") [.empty, .filled openSection] 0⟩] :=
    { parameters_nodup := List.pairwise_singleton _ _
      parameters_name := List.forall_mem_singleton.2 (by decide)
      components_nodup := List.pairwise_singleton _ _
      components_id := List.forall_mem_singleton.2 ⟨"c", hid, by decide⟩ }
  refine Item.everywhere_iff.2 ⟨⟨?_, horder⟩, ?_⟩
  · exact List.forall_mem_singleton.2 (OrderedMap.mem_values_of_get? hid)
  · exact List.forall_mem_cons.2 ⟨hmark, List.forall_mem_singleton.2 hcall⟩

theorem exists_readExpr_sparseConstructor :
    sparseConstructor.IsExpressible arrayAndPart ∧
      ∃ v : Json, ∀ path, readExpr arrayAndPart v path = .ok sparseConstructor :=
  ⟨isExpressible_sparseConstructor, Expr.exists_readExpr_eq_ok isExpressible_sparseConstructor⟩

end FortranExpr
