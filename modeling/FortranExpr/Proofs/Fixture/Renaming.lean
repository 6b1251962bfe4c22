/-
# Documents under other ids

A renaming gives other ids to symbols and to scopes: different ids stay different, and the
global scope keeps its own.  `Json.rename` puts them wherever a document declares or refers to
a symbol or a scope, and nowhere else; what stands at a place is told by the way to it.

| in | the id of a scope | the id of a symbol | the key of an object |
| --- | --- | --- | --- |
| `scopes` | `id`, `parent` | | |
| `symbols` | `scope` | `id`, `symbol` | |
| `checks` | `scope` | | |
| an expression | | `symbol`, `component`, `parameter`, `index` | in `components` |

The members of an object come in an order that depends on their names, for names that are array
indices.  `Json.KeepsOrder` says that the values of components come in the same order under the
new ids.
-/

import FortranExpr.Proofs.Fixture.Reading
import FortranExpr.Proofs.Json.Member
import Mathlib.Logic.Function.Basic

namespace FortranExpr

/-- Other ids for symbols and for scopes. -/
structure Renaming where
  symbol : String → String
  scope : String → String
  symbol_injective : symbol.Injective
  scope_injective : scope.Injective
  scope_global : scope "global" = "global"

/-- Every id stays. -/
def Renaming.refl : Renaming := ⟨id, id, Function.injective_id, Function.injective_id, rfl⟩

/-- What stands at a place of a document. -/
inductive Place where
  | document
  | scopes
  | scope
  | symbols
  | symbol
  | details
  | checks
  | check
  | expression
  | settings
  | components
  | symbolId
  | scopeId
  | plain
deriving DecidableEq

namespace Place

/-- What stands under a name. -/
def member : Place → String → Place
  | document, "scopes" => scopes
  | document, "symbols" => symbols
  | document, "checks" => checks
  | scope, "id" | scope, "parent" => scopeId
  | symbol, "id" => symbolId
  | symbol, "scope" => scopeId
  | symbol, "details" => details
  | details, "symbol" => symbolId
  | details, "init" => expression
  | check, "scope" => scopeId
  | check, "expr" => expression
  | settings, _ | components, _ => expression
  | expression, "symbol" | expression, "component" | expression, "parameter"
  | expression, "index" => symbolId
  | expression, "parameters" => settings
  | expression, "components" => components
  | expression, "operand" | expression, "left" | expression, "right" | expression, "proc"
  | expression, "args" | expression, "base" | expression, "subscripts" | expression, "triplet"
  | expression, "cosubscripts" | expression, "stat" | expression, "team" | expression, "parent"
  | expression, "lower" | expression, "upper" | expression, "complex" | expression, "values"
  | expression, "impliedDo" | expression, "stride" => expression
  | _, _ => plain

/-- What stands in an array. -/
def item : Place → Place
  | scopes => scope
  | symbols => symbol
  | checks => check
  | expression => expression
  | _ => plain

/-- A string under other ids. -/
def word (ρ : Renaming) : Place → String → String
  | symbolId => ρ.symbol
  | scopeId => ρ.scope
  | _ => id

/-- The name of a member under other ids. -/
def key (ρ : Renaming) : Place → String → String
  | components => ρ.symbol
  | _ => id

/-- Different keys get different names. -/
theorem key_injective (ρ : Renaming) (place : Place) : (place.key ρ).Injective := by
  cases place with
  | components => exact ρ.symbol_injective
  | _ => exact Function.injective_id

/-- Without new names a word stays. -/
@[simp] theorem word_refl (place : Place) (s : String) : place.word .refl s = s := by
  cases place <;> rfl

/-- Without new names a key stays. -/
@[simp] theorem key_refl (place : Place) (name : String) : place.key .refl name = name := by
  cases place <;> rfl

end Place

namespace Json

mutual

/-- A value at a place, under other ids. -/
def rename (ρ : Renaming) (place : Place) : Json → Json
  | null => null
  | bool b => bool b
  | num x => num x
  | str s => str (place.word ρ s)
  | arr items => arr (renameItems ρ place.item items)
  | obj written => obj (renameWritten ρ place written)

/-- The items of an array, each at the same place. -/
def renameItems (ρ : Renaming) (place : Place) : List Json → List Json
  | [] => []
  | v :: rest => v.rename ρ place :: renameItems ρ place rest

/-- The members of an object as they are written, each at the place of its name. -/
def renameWritten (ρ : Renaming) (place : Place) : List (String × Json) → List (String × Json)
  | [] => []
  | (name, v) :: rest =>
    (place.key ρ name, v.rename ρ (place.member name)) :: renameWritten ρ place rest

end

variable (ρ : Renaming) (place : Place)

/-- Items are renamed one by one. -/
theorem renameItems_eq_map (items : List Json) :
    renameItems ρ place items = items.map (rename ρ place) := by
  induction items with
  | nil => rfl
  | cons v rest ih => rw [renameItems, ih, List.map_cons]

/-- A member of an object under other ids. -/
def renameEntry (e : String × Json) : String × Json :=
  (place.key ρ e.1, e.2.rename ρ (place.member e.1))

/-- Members are renamed one by one. -/
theorem renameWritten_eq_map (written : List (String × Json)) :
    renameWritten ρ place written = written.map (renameEntry ρ place) := by
  induction written with
  | nil => rfl
  | cons e rest ih => rw [renameWritten, ih, List.map_cons, renameEntry]

@[simp] theorem isObject_rename (v : Json) : (v.rename ρ place).isObject = v.isObject := by
  cases v <;> rfl

/-- The last member under a name is the last one under its new name. -/
theorem lastUnder?_renameEntry (name : String) (written : List (String × Json)) :
    lastUnder? (place.key ρ name) (written.map (renameEntry ρ place)) =
      (lastUnder? name written).map (rename ρ (place.member name)) := by
  induction written with
  | nil => rfl
  | cons e rest ih =>
    obtain ⟨n, v⟩ := e
    rw [List.map_cons, renameEntry, lastUnder?, lastUnder?, ih]
    cases lastUnder? name rest with
    | some w => rfl
    | none =>
      by_cases hn : n = name
      · subst hn
        simp
      · have hkey : ¬place.key ρ n = place.key ρ name := fun h => hn (place.key_injective ρ h)
        simp [hn, hkey]

/-- **The member of a value under other ids** is the member under other ids. -/
theorem get?_rename_key (v : Json) (name : String) :
    (v.rename ρ place).get? (place.key ρ name) =
      (v.get? name).map (rename ρ (place.member name)) := by
  cases v with
  | obj written =>
    rw [rename, renameWritten_eq_map]
    exact lastUnder?_renameEntry ρ place name written
  | _ => rfl

/-! ### The members one after another -/

/-- Members replace each other under new names as they did before. -/
theorem insertEntry_renameEntry (name : String) (v : Json) (entries : List (String × Json)) :
    OrderedMap.insertEntry (place.key ρ name) (v.rename ρ (place.member name))
        (entries.map (renameEntry ρ place)) =
      (OrderedMap.insertEntry name v entries).map (renameEntry ρ place) := by
  induction entries with
  | nil => rfl
  | cons e rest ih =>
    obtain ⟨n, w⟩ := e
    rw [List.map_cons, renameEntry, OrderedMap.insertEntry, OrderedMap.insertEntry, ih]
    by_cases hn : n = name
    · subst hn
      simp [renameEntry]
    · have hkey : ¬place.key ρ n = place.key ρ name := fun h => hn (place.key_injective ρ h)
      simp [hn, hkey, renameEntry]

/-- Members come together in the same order. -/
theorem toList_foldl_renameEntry (written : List (String × Json)) (m m' : OrderedMap String Json)
    (hm : m'.toList = m.toList.map (renameEntry ρ place)) :
    ((written.map (renameEntry ρ place)).foldl (fun m e => m.insert e.1 e.2) m').toList =
      (written.foldl (fun m e => m.insert e.1 e.2) m).toList.map (renameEntry ρ place) := by
  induction written generalizing m m' with
  | nil => exact hm
  | cons e rest ih =>
    refine ih (m.insert e.1 e.2) _ ?_
    show OrderedMap.insertEntry _ _ m'.toList = _
    rw [hm]
    exact insertEntry_renameEntry ρ place e.1 e.2 m.toList

/-- An object under new names has its members in the order they were written. -/
theorem toList_ofList_renameEntry (written : List (String × Json)) :
    (OrderedMap.ofList (written.map (renameEntry ρ place))).toList =
      (OrderedMap.ofList written).toList.map (renameEntry ρ place) :=
  toList_foldl_renameEntry ρ place written .empty .empty rfl

/-- The order of members depends on their names only by the array indices among them. -/
theorem enumerated_map {g : String × Json → String × Json}
    (hg : ∀ e, arrayIndex? (g e).1 = arrayIndex? e.1) (entries : List (String × Json)) :
    enumerated (entries.map g) = (enumerated entries).map g := by
  have hindexed : ((entries.map g).filterMap fun e => (arrayIndex? e.1).map fun i => (i, e)) =
      (entries.filterMap fun e => (arrayIndex? e.1).map fun i => (i, e)).map
        (Prod.map id g) := by
    rw [List.filterMap_map, List.map_filterMap]
    refine List.filterMap_congr fun e _ => ?_
    show (arrayIndex? (g e).1).map _ = _
    rw [hg]
    cases arrayIndex? e.1 <;> rfl
  have hother : ((entries.map g).filter fun e => (arrayIndex? e.1).isNone) =
      (entries.filter fun e => (arrayIndex? e.1).isNone).map g := by
    rw [List.filter_map]
    refine congrArg (List.map g) (List.filter_congr fun e _ => ?_)
    show (arrayIndex? (g e).1).isNone = _
    rw [hg]
  rw [enumerated, enumerated, hindexed, hother, List.map_append]
  refine congrArg₂ (· ++ ·) ?_ rfl
  rw [← List.map_mergeSort (f := Prod.map id g) (r := fun a b => decide (a.1 ≤ b.1))
    fun _ _ _ _ => rfl]
  simp [List.map_map, Function.comp_def]

/-- **Where array indices stay what they are,** the members come in the same order. -/
theorem members_rename {v : Json}
    (hkey : ∀ name, arrayIndex? (place.key ρ name) = arrayIndex? name) :
    (v.rename ρ place).members = v.members.map (renameEntry ρ place) := by
  have hindex (e : String × Json) : arrayIndex? (renameEntry ρ place e).1 = arrayIndex? e.1 :=
    hkey e.1
  cases v with
  | obj written =>
    rw [rename, renameWritten_eq_map, members, toList_ofList_renameEntry, enumerated_map hindex]
    rfl
  | _ => rfl

/-- Entries with the same names, each with the value that belongs to its name. -/
theorem entries_eq_of_names (value : String → Option Json) {l l' : List (String × Json)}
    (hnames : l.map Prod.fst = l'.map Prod.fst) (hl : ∀ e ∈ l, value e.1 = some e.2)
    (hl' : ∀ e ∈ l', value e.1 = some e.2) : l = l' := by
  induction l generalizing l' with
  | nil => exact (List.map_eq_nil_iff.1 hnames.symm).symm
  | cons e rest ih =>
    obtain ⟨e', rest', rfl, hname, hrest⟩ := List.map_eq_cons_iff.1 hnames.symm
    rw [List.forall_mem_cons] at hl hl'
    have hvalue : e.2 = e'.2 := Option.some.inj (hl.1.symm.trans (hname ▸ hl'.1))
    rw [Prod.ext hname.symm hvalue, ih hrest.symm hl.2 hl'.2]

/-- **Members whose names come in the same order** come in the same order. -/
theorem members_rename_of_names {v : Json}
    (hnames : (v.rename ρ place).members.map Prod.fst = v.members.map fun e => place.key ρ e.1) :
    (v.rename ρ place).members = v.members.map (renameEntry ρ place) := by
  refine entries_eq_of_names (v.rename ρ place).get? ?_ ?_ ?_
  · rw [hnames, List.map_map]
    rfl
  · exact fun e he => mem_members_iff.1 he
  · refine List.forall_mem_map.2 fun e he => ?_
    rw [renameEntry, get?_rename_key, mem_members_iff.1 he]
    rfl

/-! ### Renamings that keep the order of components -/

/-- A value at a place contains another one, at the place where that stands. -/
inductive Contains : Place → Json → Place → Json → Prop
  | self (place : Place) (v : Json) : Contains place v place v
  | member {place target : Place} {v u w : Json} {name : String} : v.get? name = some u →
      Contains (place.member name) u target w → Contains place v target w
  | item {place target : Place} {items : List Json} {u w : Json} : u ∈ items →
      Contains place.item u target w → Contains place (arr items) target w

/-- In all constructors of a value, the values of components come in the same order under the
new ids. -/
def KeepsOrder (ρ : Renaming) (place : Place) (v : Json) : Prop :=
  ∀ w, Contains place v .components w →
    (w.rename ρ .components).members.map Prod.fst = w.members.map fun e => ρ.symbol e.1

variable {ρ place} {v u : Json}

/-- Where the order is kept, it is kept in every member. -/
theorem KeepsOrder.member (h : v.KeepsOrder ρ place) {name : String} (hu : v.get? name = some u) :
    u.KeepsOrder ρ (place.member name) :=
  fun w hw => h w (.member hu hw)

/-- Where the order is kept, it is kept in every item. -/
theorem KeepsOrder.item {items : List Json} (h : (arr items).KeepsOrder ρ place)
    (hu : u ∈ items) : u.KeepsOrder ρ place.item :=
  fun w hw => h w (.item hu hw)

/-- **A renaming keeps the order everywhere** if an id is an array index under it only where it
was one, and the same. -/
theorem keepsOrder_of_arrayIndex? (h : ∀ id, arrayIndex? (ρ.symbol id) = arrayIndex? id)
    (place : Place) (v : Json) : v.KeepsOrder ρ place := by
  intro w _
  rw [members_rename ρ .components h, List.map_map]
  rfl

/-- Without new names every order is kept. -/
theorem keepsOrder_refl (place : Place) (v : Json) : v.KeepsOrder .refl place :=
  keepsOrder_of_arrayIndex? (fun _ => rfl) place v

/-! ### Values that stay -/

/-- At the places of `P`, which are closed under members and items, no id stands that gets
another one. -/
structure Unaffected (ρ : Renaming) (P : Place → Prop) : Prop where
  member : ∀ {place}, P place → ∀ name, P (place.member name)
  item : ∀ {place}, P place → P place.item
  word : ∀ {place}, P place → ∀ s, place.word ρ s = s
  key : ∀ {place}, P place → ∀ name, place.key ρ name = name

variable {P : Place → Prop}

mutual

/-- **A value without such ids** stays as it is. -/
theorem Unaffected.rename_eq (h : Unaffected ρ P) {place : Place} (hplace : P place) :
    ∀ v : Json, v.rename ρ place = v
  | null | bool _ | num _ => rfl
  | str s => congrArg str (h.word hplace s)
  | arr items => congrArg arr (h.renameItems_eq (h.item hplace) items)
  | obj written => congrArg obj (h.renameWritten_eq hplace written)

/-- The items of an array stay. -/
theorem Unaffected.renameItems_eq (h : Unaffected ρ P) {place : Place} (hplace : P place) :
    ∀ items : List Json, renameItems ρ place items = items
  | [] => rfl
  | v :: rest => by
    rw [renameItems, h.rename_eq hplace v, h.renameItems_eq hplace rest]

/-- The members of an object stay. -/
theorem Unaffected.renameWritten_eq (h : Unaffected ρ P) {place : Place} (hplace : P place) :
    ∀ written : List (String × Json), renameWritten ρ place written = written
  | [] => rfl
  | (name, v) :: rest => by
    rw [renameWritten, h.rename_eq (h.member hplace name) v, h.renameWritten_eq hplace rest,
      h.key hplace]

end

/-- Without new names a value stays. -/
theorem rename_refl (place : Place) (v : Json) : v.rename .refl place = v :=
  Unaffected.rename_eq (P := fun _ => True)
    ⟨fun _ _ => trivial, fun _ => trivial, fun _ => Place.word_refl _, fun _ => Place.key_refl _⟩
    trivial v

/-- At a place without ids a value stays. -/
theorem rename_plain (ρ : Renaming) (v : Json) : v.rename ρ .plain = v := by
  refine Unaffected.rename_eq (P := (· = .plain)) ⟨?_, ?_, ?_, ?_⟩ rfl v
  · rintro _ rfl _
    rfl
  · rintro _ rfl
    rfl
  · rintro _ rfl _
    rfl
  · rintro _ rfl _
    rfl

/-! ### Values face to face -/

/-- The second value is the first one under other ids, which keep the order of components. -/
structure Renames (ρ : Renaming) (place : Place) (v v' : Json) : Prop where
  eq : v' = v.rename ρ place
  keepsOrder : v.KeepsOrder ρ place

/-- Every value faces itself. -/
theorem Renames.refl (place : Place) (v : Json) : Renames .refl place v v :=
  ⟨(rename_refl place v).symm, keepsOrder_refl place v⟩

/-- Images that face each other come from values whose images face each other. -/
theorem rel_of_map {α α' β β' : Type} {R : β → β' → Prop} {f : α → β} {f' : α' → β'}
    {o : Option α} {o' : Option α'} (h : Option.Rel R (o.map f) (o'.map f')) :
    Option.Rel (fun a a' => R (f a) (f' a')) o o' := by
  cases o <;> cases o' <;> cases h
  · exact .none
  · exact .some ‹_›

namespace Renames

variable {ρ : Renaming} {place target : Place} {v v' : Json}

/-- At a place without ids facing values are the same. -/
theorem eq_of_plain (h : Renames ρ .plain v v') : v' = v :=
  h.eq.trans (rename_plain ρ v)

/-- **The member of a name** faces the member of the same name. -/
theorem get? (h : Renames ρ place v v') (key : String) (hkey : place.key ρ key = key)
    (htarget : place.member key = target) :
    Option.Rel (Renames ρ target) (v.get? key) (v'.get? key) := by
  subst htarget
  have hget := get?_rename_key ρ place v key
  rw [hkey, ← h.eq] at hget
  rw [hget]
  cases hv : v.get? key with
  | none => exact .none
  | some w => exact .some ⟨rfl, h.keepsOrder.member hv⟩

/-- Members under a key that is no id face each other. -/
theorem child? (h : Renames ρ place v v') (key : String) (hkey : place.key ρ key = key)
    (htarget : place.member key = target) :
    Option.Rel (fun w w' => Renames ρ target w.1 w'.1) (v.child? key) (v'.child? key) := by
  have hget := h.get? key hkey htarget
  rw [← v.map_child?, ← v'.map_child?] at hget
  exact rel_of_map hget

/-- So do members of a value inside a record. -/
theorem belowChild? {u u' : Json} {w : u.Below} {w' : u'.Below} (h : Renames ρ place w.1 w'.1)
    (key : String) (hkey : place.key ρ key = key) (htarget : place.member key = target) :
    Option.Rel (fun w w' => Renames ρ target w.1 w'.1) (w.child? key) (w'.child? key) := by
  have hget := h.get? key hkey htarget
  rw [← w.map_child?, ← w'.map_child?] at hget
  exact rel_of_map hget

/-- **The items of an array** face each other one by one. -/
theorem items {items : List Json} (h : Renames ρ place (arr items) v') :
    ∃ items', v' = arr items' ∧ List.Forall₂ (Renames ρ place.item) items items' := by
  refine ⟨items.map (rename ρ place.item), ?_, ?_⟩
  · rw [h.eq, rename, renameItems_eq_map]
  · rw [List.forall₂_map_right_iff, List.forall₂_same]
    exact fun u hu => ⟨rfl, h.keepsOrder.item hu⟩

/-- Items of an array face each other, one by one. -/
theorem belowItems? {u u' : Json} {w : u.Below} {w' : u'.Below} (h : Renames ρ place w.1 w'.1) :
    Option.Rel (List.Forall₂ fun t t' => Renames ρ place.item t.1 t'.1) w.items? w'.items? := by
  cases hw : w.items? with
  | some items =>
    rw [Below.val_of_items? hw] at h
    obtain ⟨list', hlist', hall⟩ := h.items
    obtain ⟨items', hitems', rfl⟩ := Below.exists_items? hlist'
    rw [hitems']
    exact .some (List.forall₂_map_left_iff.1 (List.forall₂_map_right_iff.1 hall))
  | none =>
    obtain ⟨v, hv⟩ := w
    obtain ⟨v', hv'⟩ := w'
    obtain ⟨rfl, _⟩ := h
    cases v with
    | arr => cases hw
    | _ => exact .none

/-- **The members of an object** face each other one by one. -/
theorem children {u u' : Json} {w : u.Below} {w' : u'.Below} (h : Renames ρ place w.1 w'.1)
    (hnames : (w.1.rename ρ place).members.map Prod.fst =
      w.1.members.map fun e => place.key ρ e.1) :
    List.Forall₂ (fun e e' => e'.1 = place.key ρ e.1 ∧
      Renames ρ (place.member e.1) e.2.1 e'.2.1) w.children w'.children := by
  have hmembers := members_rename_of_names ρ place hnames
  rw [← h.eq, ← w.map_children, ← w'.map_children, List.map_map] at hmembers
  have hfacing := forall₂_of_map_eq hmembers.symm
  refine List.forall₂_iff_zip.2 ⟨hfacing.length_eq, fun {e e'} he => ?_⟩
  have heq := (List.forall₂_iff_zip.1 hfacing).2 he
  have hmem : (e.1, e.2.1) ∈ w.1.members := by
    rw [← w.map_children]
    exact List.mem_map_of_mem (f := fun e : String × u.Below => (e.1, e.2.1))
      (List.of_mem_zip he).1
  obtain ⟨hname, hvalue⟩ := Prod.ext_iff.1 heq
  exact ⟨hname.symm, hvalue.symm, h.keepsOrder.member (mem_members_iff.1 hmem)⟩

end Renames

/-- What a document says without ids is said in the same words. -/
theorem eq_of_rel_plain {ρ : Renaming} {o o' : Option Json}
    (h : Option.Rel (Renames ρ .plain) o o') : o' = o := by
  cases h with
  | none => rfl
  | some h => rw [h.eq_of_plain]

end Json
end FortranExpr
