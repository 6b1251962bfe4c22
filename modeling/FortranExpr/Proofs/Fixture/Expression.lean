/-
# Reading an expression

A reading at a place of the document yields an expression all of whose symbols are declared
already and all of whose literals have as many values as their shapes ask for (`Item.IsRead`), or
fails for a cause that is found in the document (`readExpr_meets`).  Each node kind has its own
lemma, from what the readers inside it do (`Readers.AreSound`).

| a literal is given | its shape | its values |
| --- | --- | --- |
| `value` | empty | this one |
| `values` without a `shape` | one extent, their number | any number |
| `values` and a `shape` | as given | as many as the extents multiply to, in double precision |
-/

import FortranExpr.Proofs.Expr.Mention
import FortranExpr.Proofs.Fixture.Cause

namespace FortranExpr

open Failure (HasCause)
open Read (Meets meets_pure meets_items_forall meets_mapM)

/-- The values of a literal are as many as was asked for when it was read. -/
inductive Constant.IsCounted : Constant → Prop where
  | scalar (category : TypeCategory) (value : Value) : IsCounted ⟨category, [value], []⟩
  | list (category : TypeCategory) (values : List Value) :
      IsCounted ⟨category, values, [.ofNat values.length]⟩
  | array {category : TypeCategory} {values : List Value} {shape : List Binary64}
      (given : shape ≠ []) (counts : ∀ x ∈ shape, x.isCount = true)
      (filled : shape.foldl (· * ·) 1 = .ofNat values.length) : IsCounted ⟨category, values, shape⟩

namespace Item

variable {σ : Type} {known : List σ}

/-- The literal that an item is. -/
def literals : Item σ → List Constant
  | expr (.constant c) => [c]
  | _ => []

/-- Only a constant expression is a literal. -/
theorem mem_literals_iff {i : Item σ} {c : Constant} :
    c ∈ i.literals ↔ i = .expr (.constant c) := by
  constructor
  · intro h
    unfold literals at h
    split at h
    · rw [List.mem_singleton.1 h]
    · cases h
  · rintro rfl
    exact List.mem_cons_self

/-- An item as it is read: everywhere in it, symbols are known and literals are counted. -/
def IsRead (known : List σ) (i : Item σ) : Prop :=
  i.Everywhere fun c => (∀ s ∈ c.symbols, s ∈ known) ∧ ∀ k ∈ c.literals, k.IsCounted

/-- An item is as it is read when its own symbols and literals are, and so are its parts. -/
theorem isRead_iff {i : Item σ} : i.IsRead known ↔
    (∀ s ∈ i.symbols, s ∈ known) ∧ (∀ k ∈ i.literals, k.IsCounted) ∧
      ∀ c ∈ i.children, c.IsRead known :=
  everywhere_iff.trans and_assoc

/-- Where nothing stands, nothing can be undeclared. -/
@[simp] theorem isRead_absent (known : List σ) : (absent : Item σ).IsRead known :=
  everywhere_absent.2 ⟨nofun, nofun⟩

/-- A symbol that is a part has to be known. -/
@[simp] theorem isRead_symbol {s : σ} : (symbol s).IsRead known ↔ s ∈ known := by
  rw [isRead_iff]
  constructor
  · exact fun h => h.1 s List.mem_cons_self
  · exact fun h => ⟨List.forall_mem_singleton.2 h, nofun, nofun⟩

/-- What is read stays so when more symbols become known. -/
theorem IsRead.mono {i : Item σ} {known' : List σ} (h : i.IsRead known)
    (hknown : ∀ s ∈ known, s ∈ known') : i.IsRead known' :=
  fun path c hc => ⟨fun s hs => hknown s ((h path c hc).1 s hs), (h path c hc).2⟩

/-- Of symbols alone this is the invariant that `Item.Over` states. -/
theorem IsRead.over {i : Item σ} (h : i.IsRead known) : i.Over known :=
  fun path c hc => (h path c hc).1

/-- Every literal, wherever it stands in an item, is counted. -/
theorem IsRead.isCounted {i : Item σ} (h : i.IsRead known) {path : List Nat} {c : Constant}
    (hc : i.at? path = some (.expr (.constant c))) : c.IsCounted :=
  (h path _ hc).2 c (mem_literals_iff.2 rfl)

end Item

variable {document : Json} {ids : SymbolIds} {path : Path}

namespace SymbolIds

/-- An id is looked up among the declared ones; the caller knows where it stands in the
document. -/
theorem resolve_meets {id : String}
    (h : HasCause document (.rejected ⟨.unknownReference .symbol id, path⟩)) :
    (ids.resolve id path).Meets (· ∈ ids.values) (HasCause document) := by
  unfold resolve
  split
  · exact OrderedMap.mem_values_of_get? ‹_›
  · exact h

/-- The id of a field stands in the document itself, so its absence is found there. -/
theorem field_meets {record : Json} (h : path.IsRecord document record) (key : String) :
    (ids.field record key path).Meets (· ∈ ids.values) (HasCause document) := by
  refine (Field.string_meets h key).bind fun id hid => ?_
  exact resolve_meets (.unknownId ((Path.resolve?_member h.resolve key).trans hid))

end SymbolIds

/-- The readers for the values inside a record yield expressions over the declared symbols,
or fail for a cause. -/
structure Readers.AreSound {v : Json} (r : Readers v) (document : Json) (ids : SymbolIds) :
    Prop where
  expr : ∀ (w : v.Below) (path : Path), path.resolve? document = some w.1 →
    (r.expr w path).Meets (fun e => (Item.expr e).IsRead ids.values) (HasCause document)
  loop : ∀ (w : v.Below) (path : Path), path.resolve? document = some w.1 →
    (r.loop w path).Meets (fun l => (Item.impliedDo l).IsRead ids.values) (HasCause document)

variable {v : Json} {r : Readers v} (hr : r.AreSound document ids)

namespace Readers

section Values

variable {w : v.Below} (hw : path.resolve? document = some w.1)
include hr hw

/-- A value that may be `null`. -/
theorem slot_meets :
    (r.slot w path).Meets (fun s => s.item.IsRead ids.values) (HasCause document) := by
  unfold slot
  split
  · exact Item.isRead_absent _
  · exact (hr.expr w path hw).map fun _ he => he

omit hr in
/-- A member of a value inside the record is found under the key, like a member of the record.
-/
theorem resolve_child? {name : String} {u : v.Below} (hu : w.child? name = some u) :
    (path.member name).resolve? document = some u.1 := by
  rw [Path.resolve?_member hw, ← w.map_child?, hu]
  rfl

/-- A subscript: a triplet of at most three bounds, or an expression. -/
theorem subscript_meets :
    (r.subscript w path).Meets (fun s => (Item.subscript s).IsRead ids.values)
      (HasCause document) := by
  unfold subscript
  split
  · refine (hr.expr w path hw).map fun e he => ?_
    exact Item.isRead_iff.2 ⟨nofun, nofun, List.forall_mem_singleton.2 he⟩
  · rename_i parts hparts
    have hplace := resolve_child? hw hparts
    have hrefused : HasCause document
        (.rejected ⟨.expected .tripletBounds, path.member "triplet"⟩) := .expected (.value hplace)
    split
    · exact hrefused
    · rename_i written hitems
      split
      · exact hrefused
      · have harray := hplace.trans (congrArg some (Json.Below.val_of_items? hitems))
        have hbounds : (Read.items (path.member "triplet") r.slot written).Meets
            (fun bounds => ∀ s ∈ bounds, s.item.IsRead ids.values) (HasCause document) :=
          meets_items_forall fun i u hu => slot_meets hr <| by
            rw [Path.resolve?_item harray, List.getElem?_map, hu]
            rfl
        refine hbounds.bind fun bounds hall => ?_
        -- a bound that is not written is an empty slot
        have hbound (k : Nat) : ((bounds[k]?).getD .empty).item.IsRead ids.values := by
          cases hk : bounds[k]? with
          | none => exact Item.isRead_absent _
          | some s => exact hall s (List.mem_of_getElem? hk)
        have htriplet : (Item.triplet ⟨bounds[0]?.getD .empty, bounds[1]?.getD .empty,
            bounds[2]?.getD .empty⟩).IsRead ids.values := by
          refine Item.isRead_iff.2 ⟨nofun, nofun, fun c hc => ?_⟩
          rcases List.mem_cons.1 hc with rfl | hc
          · exact hbound 0
          · rcases List.mem_cons.1 hc with rfl | hc
            · exact hbound 1
            · exact List.mem_singleton.1 hc ▸ hbound 2
        exact meets_pure (Item.isRead_iff.2 ⟨nofun, nofun, List.forall_mem_singleton.2 htriplet⟩)

/-- An item of an array constructor: a loop, or an expression. -/
theorem arrayItem_meets :
    (r.arrayItem w path).Meets (fun a => a.item.IsRead ids.values) (HasCause document) := by
  unfold arrayItem
  split
  · rename_i loop hloop
    exact (hr.loop loop _ (resolve_child? hw hloop)).map fun _ h => h
  · exact (hr.expr w path hw).map fun _ h => h

/-- The value of a type parameter: one of two words, or an expression. -/
theorem paramValue_meets :
    (r.paramValue w path).Meets (fun p => (Item.param p).IsRead ids.values)
      (HasCause document) := by
  unfold paramValue
  split
  · exact Item.isRead_iff.2 ⟨nofun, nofun, List.forall_mem_singleton.2 (Item.isRead_absent _)⟩
  · exact Item.isRead_iff.2 ⟨nofun, nofun, List.forall_mem_singleton.2 (Item.isRead_absent _)⟩
  · refine (hr.expr w path hw).map fun e he => ?_
    exact Item.isRead_iff.2 ⟨nofun, nofun, List.forall_mem_singleton.2 he⟩

end Values

section Fields

variable (h : path.IsRecord document v) (key : String)
include h

/-- A value inside the record stands under its key in the document. -/
theorem resolve_field {w : v.Below} (hw : v.child? key = some w) :
    (path.member key).resolve? document = some w.1 := by
  rw [Path.resolve?_member h.resolve, ← v.map_child?, hw]
  rfl

include hr in
/-- An expression that has to be there. -/
theorem required_meets :
    (r.required key path).Meets (fun e => (Item.expr e).IsRead ids.values)
      (HasCause document) := by
  unfold required
  split
  · exact hr.expr _ _ (resolve_field h key ‹_›)
  · exact .expected (h.reaches_member key)

include hr in
/-- An expression that may be absent or `null`. -/
theorem optional_meets :
    (r.optional key path).Meets (fun s => s.item.IsRead ids.values) (HasCause document) := by
  unfold optional
  split
  · exact slot_meets hr (resolve_field h key ‹_›)
  · exact Item.isRead_absent _

/-- A list, of which each item is read with the same result. -/
theorem list_meets {α : Type} {R : α → Prop} {read : v.Below → Path → Read α}
    (hread : ∀ {w : v.Below} {path : Path}, path.resolve? document = some w.1 →
      (read w path).Meets R (HasCause document)) :
    (list key path read).Meets (fun as => ∀ a ∈ as, R a) (HasCause document) := by
  refine (Field.arrayBelow_meets h key).bind fun items hitems => ?_
  exact meets_items_forall fun i w hw => hread (hitems i w hw)

include hr in
/-- An expression that has to be a name or a component. -/
theorem dataRef_meets :
    (r.dataRef key path).Meets (fun ref => (Item.expr (.entity ref)).IsRead ids.values)
      (HasCause document) := by
  refine (required_meets hr h key).bind fun e he => ?_
  split
  · exact he
  · exact .expected (h.reaches_member key)

/-- The members of a field that maps keys to values; each is a member in the document. -/
theorem members_meets :
    (members (v := v) key path).Meets
      (fun entries => ∀ e ∈ entries, ∃ record, (path.member key).IsRecord document record ∧
        record.get? e.1 = some e.2.1)
      (HasCause document) := by
  unfold members
  split
  · exact nofun
  · rename_i w hw
    split
    · exact nofun
    · rename_i written hobject
      intro e he
      refine ⟨w.1, ⟨resolve_field h key hw, by rw [hobject]; rfl⟩, ?_⟩
      rw [← Json.mem_members_iff, ← w.map_children]
      exact List.mem_map_of_mem (f := fun e : String × v.Below => (e.1, e.2.1)) he
    · exact .expected (h.reaches_member key)

end Fields

end Readers

namespace Node

open Readers

section Leaves

variable {record : Json} (h : path.IsRecord document record)

/-- One value of a literal; whatever stands there instead is refused at its place. -/
theorem literalValue_meets {value : Option Json} (hplace : path.Reaches document) :
    (literalValue value path).Meets (fun _ => True) (HasCause document) := by
  unfold literalValue
  split
  · trivial
  · trivial
  · trivial
  · exact .expected hplace

/-- An extent of a shape is a count. -/
theorem extent_meets {value : Json} (hplace : path.Reaches document) :
    (extent value path).Meets (fun x => x.isCount = true) (HasCause document) := by
  unfold extent
  split
  · split
    · exact ‹_›
    · exact .expected hplace
  · exact .expected hplace

include h

/-- A literal, in each of the three ways to give its values, is counted. -/
theorem constant_meets :
    (constant record path).Meets (·.IsCounted) (HasCause document) := by
  refine (Field.word_meets h "type").bind fun category _ => ?_
  split
  · exact (literalValue_meets (h.reaches_member "value")).bind fun value _ =>
      meets_pure (.scalar category value)
  · refine (Field.array_meets h "values").bind fun items hitems => ?_
    subst hitems
    refine (meets_items_forall fun i w hw =>
      literalValue_meets (.value (Field.getElem?_listed h "values" hw))).bind fun values _ => ?_
    refine (Field.array_meets h "shape").bind fun extents hextents => ?_
    subst hextents
    refine (meets_items_forall fun i w hw =>
      extent_meets (.value (Field.getElem?_listed h "shape" hw))).bind fun given hcounts => ?_
    dsimp only
    cases given with
    | nil =>
      rw [if_pos List.isEmpty_nil]
      split
      · exact meets_pure (.list category values)
      · exact .expected (h.reaches_member "values")
    | cons extent rest =>
      rw [List.isEmpty_cons, if_neg Bool.false_ne_true]
      split
      · rename_i hfilled
        exact meets_pure (.array (List.cons_ne_nil _ _) hcounts hfilled)
      · exact .expected (h.reaches_member "values")

/-- The digits of a constant without a type mention no symbol. -/
theorem boz_meets : (boz record path).Meets (fun _ => True) (HasCause document) := by
  refine (Field.string_meets h "value").bind fun digits _ => ?_
  split
  · trivial
  · exact .expected (h.reaches_member "value")

/-- A procedure: an intrinsic one by its name, or one that is declared. -/
theorem procedure_meets :
    (procedure ids record path).Meets (fun proc => (Item.expr (.designator proc)).IsRead ids.values)
      (HasCause document) := by
  unfold procedure
  split
  · exact Item.isRead_iff.2 ⟨nofun, nofun, List.forall_mem_singleton.2 (Item.isRead_absent _)⟩
  · refine (SymbolIds.field_meets h "symbol").map fun s hs => ?_
    exact Item.isRead_iff.2 ⟨nofun, nofun, List.forall_mem_singleton.2 (Item.isRead_symbol.2 hs)⟩

end Leaves

variable (h : path.IsRecord document v)
include hr h

/-- A call: the procedure, and then its arguments, of which some may be absent. -/
theorem call_meets :
    (call ids r path).Meets (fun e => (Item.expr e).IsRead ids.values) (HasCause document) := by
  have hproc := Path.resolve?_member h.resolve "proc"
  refine (Field.object_meets hproc (h.reaches_member "proc")).bind fun record hrecord => ?_
  refine (procedure_meets hrecord).bind fun proc hproc => ?_
  refine (list_meets h "args" (slot_meets hr)).bind fun args hargs => ?_
  refine (Field.count_meets h "rank" 0).bind fun rank _ => ?_
  exact meets_pure (Item.isRead_iff.2 ⟨nofun, nofun, List.forall_mem_cons.2
    ⟨hproc, List.forall_mem_map.2 hargs⟩⟩)

/-- An operator with one operand: operator and type are read first, and fail first. -/
theorem unary_meets :
    (unary r path).Meets (fun e => (Item.expr e).IsRead ids.values) (HasCause document) := by
  refine (Field.word_meets h "op").bind fun op _ => ?_
  refine (Field.word_meets h "type").bind fun category _ => ?_
  refine (required_meets hr h "operand").bind fun operand hoperand => ?_
  exact meets_pure (Item.isRead_iff.2 ⟨nofun, nofun, List.forall_mem_singleton.2 hoperand⟩)

/-- An operator with two operands, the left one read first. -/
theorem binary_meets :
    (binary r path).Meets (fun e => (Item.expr e).IsRead ids.values) (HasCause document) := by
  refine (Field.word_meets h "op").bind fun op _ => ?_
  refine (Field.word_meets h "type").bind fun category _ => ?_
  refine (required_meets hr h "left").bind fun left hleft => ?_
  refine (required_meets hr h "right").bind fun right hright => ?_
  exact meets_pure (Item.isRead_iff.2 ⟨nofun, nofun, List.forall_mem_cons.2
    ⟨hleft, List.forall_mem_singleton.2 hright⟩⟩)

/-- A comparison; its type is not read, as it is always logical. -/
theorem relational_meets :
    (relational r path).Meets (fun e => (Item.expr e).IsRead ids.values) (HasCause document) := by
  refine (Field.word_meets h "op").bind fun op _ => ?_
  refine (required_meets hr h "left").bind fun left hleft => ?_
  refine (required_meets hr h "right").bind fun right hright => ?_
  exact meets_pure (Item.isRead_iff.2 ⟨nofun, nofun, List.forall_mem_cons.2
    ⟨hleft, List.forall_mem_singleton.2 hright⟩⟩)

/-- A reference to a name or a component with subscripts. -/
theorem arrayRef_meets :
    (arrayRef r path).Meets (fun e => (Item.expr e).IsRead ids.values) (HasCause document) := by
  refine (dataRef_meets hr h "base").bind fun base hbase => ?_
  refine (list_meets h "subscripts" (subscript_meets hr)).bind fun subscripts hsubscripts => ?_
  exact meets_pure (Item.isRead_iff.2 ⟨nofun, nofun, List.forall_mem_cons.2
    ⟨hbase, List.forall_mem_map.2 hsubscripts⟩⟩)

/-- A coindexed reference, the only node with two lists and two expressions that may be absent.
-/
theorem coindexed_meets :
    (coindexed ids r path).Meets (fun e => (Item.expr e).IsRead ids.values)
      (HasCause document) := by
  refine (SymbolIds.field_meets h "symbol").bind fun base hbase => ?_
  refine (list_meets h "subscripts" (subscript_meets hr)).bind fun subscripts hsubscripts => ?_
  refine (list_meets h "cosubscripts" (hr.expr _ _)).bind fun cosubscripts hcosubscripts => ?_
  refine (optional_meets hr h "stat").bind fun stat hstat => ?_
  refine (optional_meets hr h "team").bind fun team hteam => ?_
  refine meets_pure (Item.isRead_iff.2 ⟨nofun, nofun, List.forall_mem_cons.2
    ⟨Item.isRead_symbol.2 hbase, List.forall_mem_append.2 ⟨List.forall_mem_append.2 ⟨?_, ?_⟩, ?_⟩⟩⟩)
  · exact List.forall_mem_map.2 hsubscripts
  · exact List.forall_mem_map.2 hcosubscripts
  · exact List.forall_mem_cons.2 ⟨hstat, List.forall_mem_singleton.2 hteam⟩

/-- A component, which is looked up among the declared symbols like any name. -/
theorem component_meets :
    (component ids r path).Meets (fun e => (Item.expr e).IsRead ids.values)
      (HasCause document) := by
  refine (required_meets hr h "base").bind fun base hbase => ?_
  refine (SymbolIds.field_meets h "component").bind fun c hc => ?_
  exact meets_pure (Item.isRead_iff.2 ⟨nofun, nofun, List.forall_mem_cons.2
    ⟨hbase, List.forall_mem_singleton.2 (Item.isRead_symbol.2 hc)⟩⟩)

/-- A substring, of which each bound may be absent. -/
theorem substring_meets :
    (substring r path).Meets (fun e => (Item.expr e).IsRead ids.values) (HasCause document) := by
  refine (required_meets hr h "parent").bind fun parent hparent => ?_
  refine (optional_meets hr h "lower").bind fun lower hlower => ?_
  refine (optional_meets hr h "upper").bind fun upper hupper => ?_
  exact meets_pure (Item.isRead_iff.2 ⟨nofun, nofun, List.forall_mem_cons.2
    ⟨hparent, List.forall_mem_cons.2 ⟨hlower, List.forall_mem_singleton.2 hupper⟩⟩⟩)

/-- The real or the imaginary part; another part is refused after the operand is read. -/
theorem complexPart_meets :
    (complexPart r path).Meets (fun e => (Item.expr e).IsRead ids.values) (HasCause document) := by
  refine (required_meets hr h "complex").bind fun complex hcomplex => ?_
  have hpart (part : ComplexPart) : (Item.expr (.complexPart complex part)).IsRead ids.values :=
    Item.isRead_iff.2 ⟨nofun, nofun, List.forall_mem_singleton.2 hcomplex⟩
  split
  · exact meets_pure (hpart _)
  · exact meets_pure (hpart _)
  · exact .expected (h.reaches_member "part")

/-- An array constructor, whose values may be loops. -/
theorem arrayConstructor_meets :
    (arrayConstructor r path).Meets (fun e => (Item.expr e).IsRead ids.values)
      (HasCause document) := by
  refine (Field.word_meets h "type").bind fun category _ => ?_
  refine (list_meets h "values" (arrayItem_meets hr)).bind fun values hvalues => ?_
  exact meets_pure (Item.isRead_iff.2 ⟨nofun, nofun, List.forall_mem_map.2 hvalues⟩)

/-- A structure constructor. The ids of its components are keys of the document, so an unknown
one is found as the last step of its path. -/
theorem structureConstructor_meets :
    (structureConstructor ids r path).Meets (fun e => (Item.expr e).IsRead ids.values)
      (HasCause document) := by
  refine (Field.string_meets h "type").bind fun type _ => ?_
  refine (members_meets h "parameters").bind fun entries hentries => ?_
  have hsettings : (entries.mapM fun (name, w) => do
        let value ← r.paramValue w ((path.member "parameters").member name)
        return (⟨name, value⟩ : ParamSetting Symbol)).Meets
      (fun ps => ∀ p ∈ ps, (Item.param p.value).IsRead ids.values) (HasCause document) := by
    refine meets_mapM fun e he => ?_
    obtain ⟨record, hrecord, hget⟩ := hentries e he
    have hplace := (Path.resolve?_member hrecord.resolve e.1).trans hget
    exact (paramValue_meets hr hplace).bind fun value hvalue => hvalue
  refine hsettings.bind fun parameters hparameters => ?_
  refine (members_meets h "components").bind fun entries hentries => ?_
  have hvalues : (entries.mapM fun (id, w) => do
        let component ← ids.resolve id ((path.member "components").member id)
        let value ← r.expr w ((path.member "components").member id)
        return (⟨component, value⟩ : ComponentValue Symbol)).Meets
      (fun cs => ∀ c ∈ cs, c.component ∈ ids.values ∧ (Item.expr c.value).IsRead ids.values)
      (HasCause document) := by
    refine meets_mapM fun e he => ?_
    obtain ⟨record, hrecord, hget⟩ := hentries e he
    have hplace := (Path.resolve?_member hrecord.resolve e.1).trans hget
    refine (SymbolIds.resolve_meets (.unknownKey hrecord hget)).bind fun c hc => ?_
    exact (hr.expr e.2 _ hplace).bind fun value hvalue => ⟨hc, hvalue⟩
  refine hvalues.bind fun components hcomponents => meets_pure (Item.isRead_iff.2 ⟨?_, nofun, ?_⟩)
  · exact List.forall_mem_map.2 fun c hc => (hcomponents c hc).1
  · exact List.forall_mem_append.2 ⟨List.forall_mem_map.2 hparameters,
      List.forall_mem_map.2 fun c hc => (hcomponents c hc).2⟩

/-- An inquiry about a type parameter, of a type or of an object of that type. -/
theorem typeParamInquiry_meets :
    (typeParamInquiry ids r path).Meets (fun e => (Item.expr e).IsRead ids.values)
      (HasCause document) := by
  refine (SymbolIds.field_meets h "parameter").bind fun parameter hparameter => ?_
  split
  · exact meets_pure (Item.isRead_iff.2 ⟨List.forall_mem_singleton.2 hparameter, nofun,
      List.forall_mem_singleton.2 (Item.isRead_absent _)⟩)
  · refine (dataRef_meets hr h "base").bind fun base hbase => ?_
    exact meets_pure (Item.isRead_iff.2 ⟨List.forall_mem_singleton.2 hparameter, nofun,
      List.forall_mem_singleton.2 hbase⟩)

/-- A read of a descriptor. Its field is a word that a message quotes, which is why the kind of
the node matters here. -/
theorem descriptorInquiry_meets (hnode : v.get? "node" = some (.str "descriptorInquiry")) :
    (descriptorInquiry r path).Meets (fun e => (Item.expr e).IsRead ids.values)
      (HasCause document) := by
  refine (dataRef_meets hr h "base").bind fun base hbase => ?_
  refine (Field.wordOf_meets (Path.resolve?_member h.resolve "field") (h.reaches_member "field")
    (.descriptorField h hnode)).bind fun field _ => ?_
  refine (Field.count_meets h "dimension" 0).bind fun dimension _ => ?_
  exact meets_pure (Item.isRead_iff.2 ⟨nofun, nofun, List.forall_mem_singleton.2 hbase⟩)

omit hr in
/-- Static data mention no symbol: their content is kept as text. -/
theorem staticData_meets :
    (staticData v path).Meets (fun e => (Item.expr e).IsRead ids.values) (HasCause document) := by
  refine (Field.string_meets h "name").bind fun name _ => ?_
  refine (Field.string_meets h "data").bind fun data _ => ?_
  exact meets_pure (Item.isRead_iff.2 ⟨nofun, nofun, nofun⟩)

omit h in
/-- **A node of any kind.** -/
theorem expr_meets (hv : path.resolve? document = some v) :
    (expr ids r path).Meets (fun e => (Item.expr e).IsRead ids.values) (HasCause document) := by
  refine (Field.object_meets hv (.value hv)).bind fun _ hrecord => ?_
  obtain rfl := Option.some.inj (hrecord.resolve.symm.trans hv)
  refine (Field.word_meets hrecord "node").bind fun kind hkind => ?_
  cases kind with
  | symbol =>
    refine (SymbolIds.field_meets hrecord "symbol").map fun s hs => ?_
    exact Item.isRead_iff.2 ⟨List.forall_mem_singleton.2 hs, nofun, nofun⟩
  | constant =>
    refine (constant_meets hrecord).map fun c hc => ?_
    exact Item.isRead_iff.2 ⟨nofun, List.forall_mem_singleton.2 hc, nofun⟩
  | boz =>
    refine Meets.map (Q := fun _ => True) ?_ fun _ _ => Item.isRead_iff.2 ⟨nofun, nofun, nofun⟩
    exact (boz_meets hrecord).bind fun _ _ => meets_pure trivial
  | null => exact meets_pure (Item.isRead_iff.2 ⟨nofun, nofun, nofun⟩)
  | staticData => exact staticData_meets hrecord
  | procedure => exact (procedure_meets hrecord).map fun _ hproc => hproc
  | call => exact call_meets hr hrecord
  | unary => exact unary_meets hr hrecord
  | binary => exact binary_meets hr hrecord
  | parens =>
    refine (required_meets hr hrecord "operand").map fun operand hoperand => ?_
    exact Item.isRead_iff.2 ⟨nofun, nofun, List.forall_mem_singleton.2 hoperand⟩
  | relational => exact relational_meets hr hrecord
  | arrayRef => exact arrayRef_meets hr hrecord
  | coarrayRef => exact coindexed_meets hr hrecord
  | component => exact component_meets hr hrecord
  | substring => exact substring_meets hr hrecord
  | complexPart => exact complexPart_meets hr hrecord
  | arrayConstructor => exact arrayConstructor_meets hr hrecord
  | structureConstructor => exact structureConstructor_meets hr hrecord
  | typeParamInquiry => exact typeParamInquiry_meets hr hrecord
  | descriptorInquiry => exact descriptorInquiry_meets hr hrecord hkind

omit h in
/-- A loop of an array constructor. -/
theorem loop_meets (hv : path.resolve? document = some v) :
    (loop ids r path).Meets (fun l => (Item.impliedDo l).IsRead ids.values)
      (HasCause document) := by
  refine (Field.object_meets hv (.value hv)).bind fun _ hrecord => ?_
  obtain rfl := Option.some.inj (hrecord.resolve.symm.trans hv)
  refine (SymbolIds.field_meets hrecord "index").bind fun index hindex => ?_
  refine (required_meets hr hrecord "lower").bind fun lower hlower => ?_
  refine (required_meets hr hrecord "upper").bind fun upper hupper => ?_
  refine (optional_meets hr hrecord "stride").bind fun stride hstride => ?_
  refine (list_meets hrecord "values" (arrayItem_meets hr)).bind fun values hvalues => ?_
  refine meets_pure (Item.isRead_iff.2 ⟨List.forall_mem_singleton.2 hindex, nofun, ?_⟩)
  exact List.forall_mem_cons.2 ⟨hlower, List.forall_mem_cons.2 ⟨hupper,
    List.forall_mem_cons.2 ⟨hstride, List.forall_mem_map.2 hvalues⟩⟩⟩

end Node

mutual

/-- **Reading an expression** at a place of the document. -/
theorem readExpr_meets {v : Json} {path : Path} (h : path.resolve? document = some v) :
    (readExpr ids v path).Meets (fun e => (Item.expr e).IsRead ids.values) (HasCause document) := by
  rw [readExpr]
  exact Node.expr_meets ⟨fun w _ hw => readExpr_meets hw, fun w _ hw => readLoop_meets hw⟩ h
termination_by sizeOf v
decreasing_by all_goals exact w.2

/-- **Reading a loop** at a place of the document. -/
theorem readLoop_meets {v : Json} {path : Path} (h : path.resolve? document = some v) :
    (readLoop ids v path).Meets (fun l => (Item.impliedDo l).IsRead ids.values)
      (HasCause document) := by
  rw [readLoop]
  exact Node.loop_meets ⟨fun w _ hw => readExpr_meets hw, fun w _ hw => readLoop_meets hw⟩ h
termination_by sizeOf v
decreasing_by all_goals exact w.2

end

end FortranExpr
