/-
# Parts of expressions read back

Reading undoes writing wherever an expression, or a part of one, is written in a record.  An
item of an expression is read back (`Item.ReadsBack`) when the reader for its place gives it
for what is written of it, whatever stands around it.  A field is read back when what is
written in it is:

| field | read back when |
| --- | --- |
| a slot | its expression is, if it has one |
| a subscript, an item of an array constructor | the expression is, or the section or the loop |
| a type parameter | its value is an expression that is, or one of the two marks |
| a list | every item is |
| members | no name stands twice and none is an array index |

An array index is refused as the name of a member because such members come first, whatever
the order they are written in.
-/

import FortranExpr.Proofs.Fixture.Reading
import FortranExpr.Proofs.Fixture.Spelling
import FortranExpr.Proofs.Json.Member
import FortranExpr.Traversal.Item

namespace FortranExpr

open Read (bind_eq_ok map_eq_ok items_eq_ok)

/-- Every value of the enumeration is found under its word. -/
class Vocabulary.IsComplete (α : Type) [Vocabulary α] : Prop where
  ofWord?_word : ∀ a : α, ofWord? (word a) = some a

instance : Vocabulary.IsComplete TypeCategory := ⟨fun a => by cases a <;> rfl⟩

instance : Vocabulary.IsComplete UnaryOp := ⟨fun a => by cases a <;> rfl⟩

instance : Vocabulary.IsComplete BinaryOp := ⟨fun a => by cases a <;> rfl⟩

instance : Vocabulary.IsComplete RelationalOp := ⟨fun a => by cases a <;> rfl⟩

instance : Vocabulary.IsComplete DescriptorField := ⟨fun a => by cases a <;> rfl⟩

instance : Vocabulary.IsComplete NodeKind := ⟨fun a => by cases a <;> rfl⟩

namespace Field

variable {record : Json} {key : String} {path : Path}

/-- A string that was written is read. -/
theorem string_eq_ok {s : String} (h : record.get? key = some (.str s)) :
    string record key path = .ok s := by
  rw [string, h]

/-- A count that was written is read. -/
theorem count_eq_ok {fallback x : Binary64} (h : record.get? key = some (.num x))
    (hx : x.isCount = true) : count fallback record key path = .ok x := by
  rw [count, h]
  exact if_pos hx

/-- An array that was written is read. -/
theorem array_eq_ok {items : List Json} (h : record.get? key = some (.arr items)) :
    array record key path = .ok items := by
  rw [array, h]

variable {α : Type} [Vocabulary α] [Vocabulary.IsComplete α] {a : α}

/-- A word of a complete vocabulary is read as what it stands for. -/
theorem word_eq_ok (h : record.get? key = some (.str (Vocabulary.word a))) :
    word record key path = .ok a := by
  refine bind_eq_ok (string_eq_ok h) ?_
  rw [Vocabulary.IsComplete.ofWord?_word]
  rfl

omit [Vocabulary α] [Vocabulary.IsComplete α] in
/-- The kind of a node, where no other member is called so. -/
theorem word_node {kind : NodeKind} {fields : List (String × Json)}
    (h : (Json.obj fields).get? "node" = none) :
    word (Json.node kind fields) "node" path = .ok kind := by
  refine word_eq_ok ?_
  show Json.lastUnder? "node" (("node", .str (Vocabulary.word kind)) :: fields) = _
  have hnone : Json.lastUnder? "node" fields = none := h
  rw [Json.lastUnder?, hnone]
  exact if_pos rfl

omit [Vocabulary α] [Vocabulary.IsComplete α] in
/-- **A node goes on** with the reader for its kind. -/
theorem node_bind_eq_ok {kind : NodeKind} {fields : List (String × Json)}
    (h : (Json.obj fields).get? "node" = none) {k : NodeKind → Read α} {a : α}
    (hk : k kind = .ok a) :
    (object (some (Json.node kind fields)) path >>= fun _ =>
      word (Json.node kind fields) "node" path >>= k) = .ok a :=
  bind_eq_ok rfl (bind_eq_ok (word_node h) hk)

/-- So it is by the reader that takes any value. -/
theorem wordOf_eq_ok : wordOf (some (.str (Vocabulary.word a))) path = .ok a := by
  simp only [wordOf, Vocabulary.IsComplete.ofWord?_word]

end Field

/-- An id that was written is looked up. -/
theorem SymbolIds.field_eq_ok {ids : SymbolIds} {record : Json} {key id : String} {path : Path}
    {s : Symbol} (h : record.get? key = some (.str id)) (hid : ids.get? id = some s) :
    ids.field record key path = .ok s := by
  refine bind_eq_ok (Field.string_eq_ok h) ?_
  rw [resolve, hid]

/-- The readers for the values inside a record. -/
abbrev SymbolIds.readers (ids : SymbolIds) (v : Json) : Readers v :=
  ⟨fun w p => readExpr ids w.1 p, fun w p => readLoop ids w.1 p⟩

open scoped Classical in
/-- An id of a symbol, and one that is no array index if there is one. -/
noncomputable def SymbolIds.idOf (ids : SymbolIds) (s : Symbol) : String :=
  if h : ∃ id, ids.get? id = some s ∧ Json.arrayIndex? id = none then h.choose
  else if h : ∃ id, ids.get? id = some s then h.choose
  else ""

variable {ids : SymbolIds}

/-- The id of a declared symbol leads back to it. -/
theorem SymbolIds.get?_idOf {s : Symbol} (h : s ∈ ids.values) :
    ids.get? (ids.idOf s) = some s := by
  have hany := OrderedMap.exists_get?_of_mem_values h
  unfold idOf
  split
  · rename_i hname
    exact hname.choose_spec.1
  · exact hany.choose_spec

/-- The id chosen for a symbol is no array index, if it has such an id. -/
theorem SymbolIds.arrayIndex?_idOf {s : Symbol}
    (h : ∃ id, ids.get? id = some s ∧ Json.arrayIndex? id = none) :
    Json.arrayIndex? (ids.idOf s) = none := by
  rw [idOf, dif_pos h]
  exact h.choose_spec.2

/-- A value inside a record is read as `a`, wherever it stands. -/
def Json.IsReadAs {α : Type} (json : Json) (read : ∀ v : Json, v.Below → Path → Read α) (a : α) :
    Prop :=
  ∀ (v : Json) (w : v.Below), w.1 = json → ∀ path, read v w path = .ok a

/-- An item of an expression is read back where it is written. -/
def Item.ReadsBack (ids : SymbolIds) : Item Symbol → Prop
  | .absent => True
  | .symbol s => ids.get? (ids.idOf s) = some s
  | .expr e => ∀ path, readExpr ids (e.toJson ids.idOf) path = .ok e
  | .subscript s => (s.toJson ids.idOf).IsReadAs (fun v => (ids.readers v).subscript) s
  | .triplet ⟨lower, upper, stride⟩ => ∀ s ∈ [lower, upper, stride],
      (s.toJson ids.idOf).IsReadAs (fun v => (ids.readers v).slot) s
  | .impliedDo loop => ∀ path, readLoop ids (loop.toJson ids.idOf) path = .ok loop
  | .param value => (value.toJson ids.idOf).IsReadAs (fun v => (ids.readers v).paramValue) value

namespace Readers

/-- An expression that reads back does so inside any record. -/
theorem expr_isReadAs {e : Expr Symbol} (h : (Item.expr e).ReadsBack ids) :
    (e.toJson ids.idOf).IsReadAs (fun v => (ids.readers v).expr) e := by
  intro v w hw path
  show readExpr ids w.1 path = _
  rw [hw]
  exact h path

/-- An empty slot is written as `null`, which no expression is. -/
theorem slot_isReadAs {s : Slot Symbol} (h : s.item.ReadsBack ids) :
    (s.toJson ids.idOf).IsReadAs (fun v => (ids.readers v).slot) s := by
  intro v w hw path
  dsimp only [slot]
  cases s with
  | empty =>
    rw [Slot.toJson] at hw
    rw [hw]
  | filled e =>
    rw [Slot.toJson] at hw
    have hread : readExpr ids w.1 path = .ok e := expr_isReadAs h v w hw path
    obtain ⟨written, hobj, _⟩ := e.exists_toJson_eq_obj ids.idOf
    rw [hw, hobj] at hread ⊢
    exact map_eq_ok hread Slot.filled

/-- An element is written as its expression, and no expression looks like a triplet. -/
theorem subscript_isReadAs_element {e : Expr Symbol} (h : (Item.expr e).ReadsBack ids) :
    (Item.subscript (.element e)).ReadsBack ids := by
  intro v w hw path
  rw [Subscript.toJson] at hw
  have hread := expr_isReadAs h v w hw path
  obtain ⟨written, hobj, hplain, _⟩ := e.exists_toJson_eq_obj ids.idOf
  have hnone : w.child? "triplet" = none :=
    Json.Below.child?_eq_none ((congrArg (Json.get? · "triplet") (hw.trans hobj)).trans hplain)
  dsimp only [subscript]
  rw [hnone]
  exact map_eq_ok hread Subscript.element

/-- **A section is read back** when its bounds and its stride are. -/
theorem subscript_isReadAs_triplet {t : Triplet Symbol} (h : (Item.triplet t).ReadsBack ids) :
    (Item.subscript (.triplet t)).ReadsBack ids := by
  intro v w hw path
  obtain ⟨lower, upper, stride⟩ := t
  rw [Subscript.toJson, Triplet.toJson] at hw
  obtain ⟨parts, hparts, hval⟩ := Json.Below.exists_child? (congrArg (Json.get? · "triplet") hw)
  obtain ⟨items, hitems, hmap⟩ := Json.Below.exists_items? hval
  have hlength : items.length = 3 := by simpa using congrArg List.length hmap
  have hslots : List.Forall₂ (fun w s => w.1 = s.toJson ids.idOf) items [lower, upper, stride] :=
    forall₂_of_map_eq hmap
  have hbounds : Read.items (path.member "triplet") (ids.readers v).slot items =
      .ok [lower, upper, stride] :=
    items_eq_ok hslots fun s hs u hu => h s hs v u hu
  dsimp only [subscript]
  rw [hparts]
  dsimp only
  rw [hitems]
  dsimp only
  rw [if_neg (by omega)]
  exact bind_eq_ok hbounds rfl

/-- A value of an array constructor is written as its expression, and no expression looks like a
loop. -/
theorem arrayItem_isReadAs {a : ArrayItem Symbol} (h : a.item.ReadsBack ids) :
    (a.toJson ids.idOf).IsReadAs (fun v => (ids.readers v).arrayItem) a := by
  intro v w hw path
  dsimp only [arrayItem]
  cases a with
  | expr e =>
    rw [ArrayItem.toJson] at hw
    have hread := expr_isReadAs h v w hw path
    obtain ⟨written, hobj, _, hplain⟩ := e.exists_toJson_eq_obj ids.idOf
    have hnone : w.child? "impliedDo" = none :=
      Json.Below.child?_eq_none ((congrArg (Json.get? · "impliedDo") (hw.trans hobj)).trans hplain)
    rw [hnone]
    exact map_eq_ok hread ArrayItem.expr
  | impliedDo loop =>
    rw [ArrayItem.toJson] at hw
    obtain ⟨u, hu, hval⟩ := Json.Below.exists_child? (congrArg (Json.get? · "impliedDo") hw)
    have hread : readLoop ids u.1 (path.member "impliedDo") = .ok loop := by
      rw [hval]
      exact h _
    rw [hu]
    exact map_eq_ok hread ArrayItem.impliedDo

/-- An explicit value is an object, and so is neither of the two words. -/
theorem paramValue_isReadAs {e : Expr Symbol} (h : (Item.expr e).ReadsBack ids) :
    (Item.param (.explicit e)).ReadsBack ids := by
  intro v w hw path
  rw [ParamValue.toJson] at hw
  have hread : readExpr ids w.1 path = .ok e := expr_isReadAs h v w hw path
  obtain ⟨written, hobj, _⟩ := e.exists_toJson_eq_obj ids.idOf
  dsimp only [paramValue]
  rw [hw, hobj] at hread ⊢
  exact map_eq_ok hread ParamValue.explicit

/-- The two marks are words. -/
theorem paramValue_isReadAs_mark {value : ParamValue Symbol}
    (h : value = .assumed ∨ value = .deferred) : (Item.param value).ReadsBack ids := by
  intro v w hw path
  dsimp only [paramValue]
  rcases h with rfl | rfl <;>
  · rw [ParamValue.toJson] at hw
    rw [hw]
    rfl

section Fields

variable {v : Json} {key : String} (path : Path)

/-- A field that holds a written expression is read. -/
theorem required_eq_ok {e : Expr Symbol} (hget : v.get? key = some (e.toJson ids.idOf))
    (h : (Item.expr e).ReadsBack ids) : (ids.readers v).required key path = .ok e := by
  obtain ⟨w, hw, hval⟩ := Json.exists_child? hget
  rw [required, hw]
  exact expr_isReadAs h v w hval (path.member key)

/-- A field that holds a written slot is read, empty or not. -/
theorem optional_eq_ok {s : Slot Symbol} (hget : v.get? key = some (s.toJson ids.idOf))
    (h : s.item.ReadsBack ids) : (ids.readers v).optional key path = .ok s := by
  obtain ⟨w, hw, hval⟩ := Json.exists_child? hget
  rw [optional, hw]
  exact slot_isReadAs h v w hval (path.member key)

/-- A name or a component is read as one. -/
theorem dataRef_eq_ok {ref : DataRef Symbol} (hget : v.get? key = some (ref.toJson ids.idOf))
    (h : (Item.expr (.entity ref)).ReadsBack ids) : (ids.readers v).dataRef key path = .ok ref := by
  have hentity : (Expr.entity ref).toJson ids.idOf = ref.toJson ids.idOf := by rw [Expr.toJson]
  exact bind_eq_ok (required_eq_ok path (hentity ▸ hget) h) rfl

/-- **A list is read back** when all its items are. -/
theorem list_eq_ok {α : Type} {encode : α → Json} {as : List α}
    (read : ∀ v : Json, v.Below → Path → Read α)
    (hget : v.get? key = some (.arr (as.map encode)))
    (h : ∀ a ∈ as, (encode a).IsReadAs read a) : list key path (read v) = .ok as := by
  obtain ⟨w, hw, hval⟩ := Json.exists_child? hget
  obtain ⟨items, hitems, hmap⟩ := Json.Below.exists_items? hval
  have harray : Field.arrayBelow v key path = .ok items := by
    rw [Field.arrayBelow, hw]
    dsimp only
    rw [hitems]
  have hread : Read.items (path.member key) (read v) items = .ok as :=
    items_eq_ok (forall₂_of_map_eq hmap) fun a ha u hu => h a ha v u hu
  exact bind_eq_ok harray hread

/-- **Members are read back** one after another when no name stands twice and none is an array
index. -/
theorem members_bind_eq_ok {α : Type} {written : List (String × Json)}
    (hget : v.get? key = some (.obj written)) (hnodup : (written.map Prod.fst).Nodup)
    (hname : ∀ e ∈ written, Json.arrayIndex? e.1 = none)
    {k : List (String × v.Below) → Read α} {a : α}
    (hk : ∀ entries, entries.map (fun e => (e.1, e.2.1)) = written → k entries = .ok a) :
    (members key path >>= k) = .ok a := by
  obtain ⟨w, hw, hval⟩ := Json.exists_child? hget
  have hmembers : members key path = .ok w.children := by
    rw [members, hw]
    dsimp only
    rw [hval]
  refine bind_eq_ok hmembers (hk w.children ?_)
  rw [w.map_children, hval, Json.members_obj hnodup hname]

end Fields

end Readers

end FortranExpr
