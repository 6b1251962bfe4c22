/-
# Expressions side by side

An expression is read along the same expression under other ids: where the first reading has a
result, the second has one with the same view of every symbol, and where the first fails, the
second fails as it has to (`readExpr_along`).  Each node kind has its own lemma, from what the
readers inside it do (`Readers.GoAlong`).

Only a structure constructor depends on the order of the members of an object, and there the
order of components is kept (`Json.KeepsOrder`).
-/

import FortranExpr.Proofs.Fixture.SideBySide

namespace FortranExpr

open Json (Renames)
open Read (along_pure along_items along_mapM map_eq_of_forall₂ eq_of_forall₂)
open SideBySide (expected_along object_along wordOf_along array_along field_along count_along
  text_along word_along)

/-- The named object or component that an expression is. -/
def Expr.dataRef? {σ : Type} : Expr σ → Option (DataRef σ)
  | .entity ref => some ref
  | _ => none

/-- Other symbols in an expression leave it a name or a component, or neither. -/
theorem Expr.dataRef?_map {σ τ : Type} (f : σ → τ) (e : Expr σ) :
    (e.map f).dataRef? = e.dataRef?.map (DataRef.map f) := by
  cases e with
  | typeParamInquiry parameter base => cases base <;> simp [map, dataRef?]
  | _ => simp [map, dataRef?]

/-- A reference is read as an expression first, and refused afterwards if it is something else.
Refusing does not look at the symbols. -/
theorem Readers.dataRef_eq {v : Json} (r : Readers v) (key : String) (path : Path) :
    r.dataRef key path = r.required key path >>= fun e =>
      e.dataRef?.elim (.expected .dataRef (path.member key)) pure := by
  refine congrArg (r.required key path >>= ·) (funext fun e => ?_)
  cases e <;> rfl

variable {τ : Type} {S : SideBySide τ} {path path' : Path} {v v' : Json}

/-- The readers for the values inside a record go along with those for the values inside the
record that it faces. -/
structure Readers.GoAlong (S : SideBySide τ) (r : Readers v) (r' : Readers v') : Prop where
  expr {w : v.Below} {w' : v'.Below} {path path' : Path} :
    Renames S.newIds .expression w.1 w'.1 → S.Facing path path' →
    S.Along (fun e e' => e'.map S.view' = e.map S.view) (r.expr w path) (r'.expr w' path')
  loop {w : v.Below} {w' : v'.Below} {path path' : Path} :
    Renames S.newIds .expression w.1 w'.1 → S.Facing path path' →
    S.Along (fun l l' => l'.map S.view' = l.map S.view) (r.loop w path) (r'.loop w' path')

variable {r : Readers v} {r' : Readers v'} (hr : r.GoAlong S r') (hpath : S.Facing path path')

namespace Readers

/-! ### Values inside a record -/

section Values

variable {w : v.Below} {w' : v'.Below} (hw : Renames S.newIds .expression w.1 w'.1)
include hr hpath hw

/-- A value is `null` on both sides, or on neither. -/
theorem slot_along : S.Along (fun s s' => s'.map S.view' = s.map S.view) (r.slot w path)
    (r'.slot w' path') := by
  have hfilled : S.Along (fun s s' : Slot Symbol => s'.map S.view' = s.map S.view)
      ((r.expr w path).map .filled) ((r'.expr w' path').map .filled) :=
    (hr.expr hw hpath).map fun e e' he => by rw [Slot.map, Slot.map, he]
  obtain ⟨u, _⟩ := w
  obtain ⟨u', _⟩ := w'
  obtain ⟨rfl, _⟩ := hw
  cases u with
  | null => exact along_pure (by rw [Slot.map, Slot.map])
  | _ => exact hfilled

/-- A triplet faces a triplet with as many bounds. -/
theorem subscript_along : S.Along (fun s s' => s'.map S.view' = s.map S.view)
    (r.subscript w path) (r'.subscript w' path') := by
  have hchild := hw.belowChild? "triplet" rfl rfl
  unfold subscript
  generalize w.child? "triplet" = o at hchild ⊢
  generalize w'.child? "triplet" = o' at hchild ⊢
  cases hchild with
  | none => exact (hr.expr hw hpath).map fun e e' he => by rw [Subscript.map, Subscript.map, he]
  | @some parts parts' hparts =>
    have hplace := S.member hpath "triplet"
    have hitems := hparts.belowItems?
    dsimp only
    generalize parts.items? = items at hitems ⊢
    generalize parts'.items? = items' at hitems ⊢
    cases hitems with
    | none => exact expected_along hplace _
    | @some items items' hitems =>
      dsimp only
      rw [hitems.length_eq]
      split
      · exact expected_along hplace _
      · refine (along_items hitems fun i t t' ht => slot_along hr (S.item hplace i) ht).bind
          fun bounds bounds' hbounds => along_pure ?_
        have hall := map_eq_of_forall₂ hbounds
        -- a bound that is not written is an empty slot in both
        have hbound (k : Nat) : (bounds'[k]?.getD .empty).map S.view' =
            (bounds[k]?.getD .empty).map S.view := by
          have hk := congrArg (fun l => (l[k]?).getD .empty) hall
          simp only [List.getElem?_map] at hk
          cases hb : bounds[k]? <;> cases hb' : bounds'[k]? <;> simp_all [Slot.map]
        rw [Subscript.map, Subscript.map, Triplet.map, Triplet.map, hbound, hbound, hbound]

/-- A loop faces a loop, and an expression an expression. -/
theorem arrayItem_along : S.Along (fun a a' => a'.map S.view' = a.map S.view)
    (r.arrayItem w path) (r'.arrayItem w' path') := by
  have hchild := hw.belowChild? "impliedDo" rfl rfl
  unfold arrayItem
  generalize w.child? "impliedDo" = o at hchild ⊢
  generalize w'.child? "impliedDo" = o' at hchild ⊢
  cases hchild with
  | none => exact (hr.expr hw hpath).map fun e e' he => by rw [ArrayItem.map, ArrayItem.map, he]
  | some hloop =>
    exact (hr.loop hloop (S.member hpath "impliedDo")).map fun l l' hl => by
      rw [ArrayItem.map, ArrayItem.map, hl]

/-- The two words for a value are no ids, so they are the same on both sides. -/
theorem paramValue_along : S.Along (fun p p' => p'.map S.view' = p.map S.view)
    (r.paramValue w path) (r'.paramValue w' path') := by
  have hexplicit : S.Along (fun p p' : ParamValue Symbol => p'.map S.view' = p.map S.view)
      ((r.expr w path).map .explicit) ((r'.expr w' path').map .explicit) :=
    (hr.expr hw hpath).map fun e e' he => by rw [ParamValue.map, ParamValue.map, he]
  have hsame : ∀ p : ParamValue Symbol, p = .assumed ∨ p = .deferred →
      p.map S.view' = p.map S.view := by
    rintro p (rfl | rfl) <;> rw [ParamValue.map, ParamValue.map]
  unfold paramValue
  obtain ⟨u, _⟩ := w
  obtain ⟨u', _⟩ := w'
  have hu : u' = u.rename S.newIds .expression := hw.eq
  cases u with
  | str s =>
    obtain rfl : u' = .str s := hu
    dsimp only
    split
    · exact along_pure (hsame _ (.inl rfl))
    · exact along_pure (hsame _ (.inr rfl))
    · exact hexplicit
  | _ =>
    subst hu
    exact hexplicit

end Values

/-! ### Fields of a record -/

section Fields

variable (hv : Renames S.newIds .expression v v') {key : String}
include hpath hv

include hr in
/-- An expression that has to be there is missing on both sides or on neither. -/
theorem required_along (htarget : Place.member .expression key = .expression) :
    S.Along (fun e e' => e'.map S.view' = e.map S.view) (r.required key path)
      (r'.required key path') := by
  have hchild := hv.child? key rfl htarget
  unfold required
  generalize v.child? key = o at hchild ⊢
  generalize v'.child? key = o' at hchild ⊢
  cases hchild with
  | none => exact expected_along (S.member hpath key) _
  | some hw => exact hr.expr hw (S.member hpath key)

include hr in
/-- An expression that may be absent is absent on both sides or on neither. -/
theorem optional_along (htarget : Place.member .expression key = .expression) :
    S.Along (fun s s' => s'.map S.view' = s.map S.view) (r.optional key path)
      (r'.optional key path') := by
  have hchild := hv.child? key rfl htarget
  unfold optional
  generalize v.child? key = o at hchild ⊢
  generalize v'.child? key = o' at hchild ⊢
  cases hchild with
  | none => exact along_pure (by rw [Slot.map, Slot.map])
  | some hw => exact slot_along hr (S.member hpath key) hw

/-- Lists have the same length, and their items face each other. -/
theorem list_along {α γ : Type} {view view' : α → γ} {read : v.Below → Path → Read α}
    {read' : v'.Below → Path → Read α} (htarget : Place.member .expression key = .expression)
    (hread : ∀ {path path' : Path}, S.Facing path path' → ∀ {w : v.Below} {w' : v'.Below},
      Renames S.newIds .expression w.1 w'.1 →
      S.Along (fun a a' => view' a' = view a) (read w path) (read' w' path')) :
    S.Along (fun as as' => as'.map view' = as.map view) (list key path read)
      (list key path' read') := by
  have hchild := hv.child? key rfl htarget
  have hplace := S.member hpath key
  have hitems : S.Along (List.Forall₂ fun w w' => Renames S.newIds .expression w.1 w'.1)
      (Field.arrayBelow v key path) (Field.arrayBelow v' key path') := by
    unfold Field.arrayBelow
    generalize v.child? key = o at hchild ⊢
    generalize v'.child? key = o' at hchild ⊢
    cases hchild with
    | none => exact along_pure .nil
    | @some w w' hw =>
      have hitems := hw.belowItems?
      dsimp only
      generalize w.items? = items at hitems ⊢
      generalize w'.items? = items' at hitems ⊢
      cases hitems with
      | none => exact expected_along hplace _
      | some hitems => exact along_pure hitems
  refine hitems.bind fun ws ws' hws => ?_
  have hall := along_items hws fun i w w' hw => hread (S.item hplace i) hw
  cases hread : Read.items (path.member key) read ws with
  | ok as =>
    obtain ⟨as', has', hviews⟩ := hall.of_eq_ok hread
    exact ⟨as', has', map_eq_of_forall₂ hviews⟩
  | error f =>
    rw [hread] at hall
    exact hall

include hr in
/-- A name or a component faces one, so both sides accept it or refuse it. -/
theorem dataRef_along (htarget : Place.member .expression key = .expression) :
    S.Along (fun ref ref' => ref'.map S.view' = ref.map S.view) (r.dataRef key path)
      (r'.dataRef key path') := by
  rw [r.dataRef_eq, r'.dataRef_eq]
  refine (required_along hr hpath hv htarget).bind fun e e' he => ?_
  have href := congrArg Expr.dataRef? he
  rw [Expr.dataRef?_map, Expr.dataRef?_map] at href
  cases hd : e.dataRef? <;> cases hd' : e'.dataRef? <;> rw [hd, hd'] at href
  · exact expected_along (S.member hpath key) _
  · cases href
  · cases href
  · exact along_pure (Option.some.inj href)

/-- The members of an object that come in the same order. -/
theorem members_along (place : Place) (htarget : Place.member .expression key = place)
    (hmember : ∀ name, place.member name = .expression)
    (hnames : ∀ u : Json, u.KeepsOrder S.newIds place →
      (u.rename S.newIds place).members.map Prod.fst =
        u.members.map fun e => place.key S.newIds e.1) :
    S.Along (List.Forall₂ fun e e' => e'.1 = place.key S.newIds e.1 ∧
        Renames S.newIds .expression e.2.1 e'.2.1)
      (members (v := v) key path) (members (v := v') key path') := by
  have hchild := hv.child? key rfl htarget
  unfold members
  generalize v.child? key = o at hchild ⊢
  generalize v'.child? key = o' at hchild ⊢
  cases hchild with
  | none => exact along_pure .nil
  | @some w w' hw =>
    have hchildren := hw.children (hnames w.1 hw.keepsOrder)
    simp only [hmember] at hchildren
    obtain ⟨u, _⟩ := w
    obtain ⟨u', _⟩ := w'
    obtain ⟨rfl, _⟩ := hw
    cases u with
    | null => exact along_pure .nil
    | obj written => exact along_pure hchildren
    | _ => exact expected_along (S.member hpath key) _

end Fields

end Readers

namespace Node

open Readers
variable (hv : Renames S.newIds .expression v v')

section Leaves

include hpath

/-- A literal is no id wherever it stands, also when it is spelled like one. -/
theorem literalValue_along (target : Place) {value value' : Option Json}
    (h : Option.Rel (Renames S.newIds target) value value')
    (hword : ∀ s, target.word S.newIds s = s) :
    S.Along (fun x x' => x' = x) (literalValue value path) (literalValue value' path') := by
  cases h with
  | none => exact expected_along hpath _
  | @some u u' hu =>
    obtain ⟨rfl, _⟩ := hu
    cases u with
    | num | bool => exact along_pure rfl
    | str s => exact along_pure (congrArg Value.characters (hword s))
    | _ => exact expected_along hpath _

/-- An extent is read from the same value on both sides. -/
theorem extent_along (value : Json) :
    S.Along (fun x x' => x' = x) (extent value path) (extent value path') := by
  unfold extent
  split
  · split
    · exact along_pure rfl
    · exact expected_along hpath _
  · exact expected_along hpath _

include hv

/-- A literal has the same type, values and shape on both sides. -/
theorem constant_along :
    S.Along (fun c c' => c' = c) (constant v path) (constant v' path') := by
  refine (word_along hpath (hv.get? _ rfl rfl)).bind fun category category' hcategory => ?_
  subst hcategory
  have hvalues := hv.get? "values" rfl rfl
  generalize v.get? "values" = o at hvalues ⊢
  generalize v'.get? "values" = o' at hvalues ⊢
  cases hvalues with
  | none =>
    refine (literalValue_along (S.member hpath "value") .plain (hv.get? "value" rfl rfl)
      fun _ => rfl).bind fun value value' hvalue => ?_
    exact along_pure (by rw [hvalue])
  | some _ =>
    refine (array_along hpath .expression (hv.get? "values" rfl rfl)).bind
      fun items items' hitems => ?_
    refine (along_items hitems fun i u u' hu => literalValue_along
      (S.item (S.member hpath "values") i) .expression (.some hu) fun _ => rfl).bind
      fun values values' hsame => ?_
    obtain rfl := eq_of_forall₂ hsame
    refine (array_along hpath .plain (hv.get? "shape" rfl rfl)).bind
      fun extents extents' hextents => ?_
    have hextent (i : Nat) (u u' : Json) (hu : Renames S.newIds .plain u u') :
        S.Along (fun x x' => x' = x) (extent u ((path.member "shape").item i))
          (extent u' ((path'.member "shape").item i)) := by
      rw [hu.eq_of_plain]
      exact extent_along (S.item (S.member hpath "shape") i) u
    refine (along_items hextents hextent).bind fun given given' hsame => ?_
    obtain rfl := eq_of_forall₂ hsame
    dsimp only
    generalize (if given'.isEmpty then _ else given') = shape
    split
    · exact along_pure rfl
    · exact expected_along (S.member hpath "values") _

/-- The digits are the same on both sides. -/
theorem boz_along : S.Along (fun n n' => n' = n) (boz v path) (boz v' path') := by
  refine (text_along hpath (hv.get? _ rfl rfl)).bind
    fun digits digits' hdigits => ?_
  obtain rfl : digits = digits' := hdigits.symm
  split
  · exact along_pure rfl
  · exact expected_along (S.member hpath "value") _

/-- The name of an intrinsic procedure is no id; any other procedure is renamed. -/
theorem procedure_along :
    S.Along (fun proc proc' => proc'.map S.view' = proc.map S.view) (procedure S.ids v path)
      (procedure S.ids' v' path') := by
  have hintrinsic : v'.get? "intrinsic" = v.get? "intrinsic" :=
    Json.eq_of_rel_plain (hv.get? "intrinsic" rfl rfl)
  unfold procedure
  rw [hintrinsic]
  split
  · exact along_pure rfl
  · exact (field_along hpath (hv.get? _ rfl rfl)).map fun s s' hs => congrArg Procedure.user hs

/-- Static data hold no id. -/
theorem staticData_along :
    S.Along (fun e e' => e'.map S.view' = e.map S.view) (staticData v path)
      (staticData v' path') := by
  refine (text_along hpath (hv.get? _ rfl rfl)).bind fun name _ hname => ?_
  refine (text_along hpath (hv.get? _ rfl rfl)).bind fun data _ hdata => ?_
  exact along_pure (by rw [hname, hdata, Expr.map, Expr.map])

end Leaves

include hr hpath hv

/-- A call: absent arguments are absent on both sides. -/
theorem call_along :
    S.Along (fun e e' => e'.map S.view' = e.map S.view) (call S.ids r path)
      (call S.ids' r' path') := by
  have hproc := S.member hpath "proc"
  refine (object_along hproc (hv.get? _ rfl rfl)).bind fun record record' hrecord => ?_
  refine (procedure_along hproc hrecord).bind fun proc proc' hproc => ?_
  refine (list_along hpath hv rfl (slot_along hr)).bind fun args args' hargs => ?_
  refine (count_along hpath (hv.get? _ rfl rfl) 0).bind fun rank rank' hrank => ?_
  exact along_pure (by rw [hrank, Expr.map, Expr.map, hproc, hargs])

/-- An operator with one operand: its words are no ids. -/
theorem unary_along :
    S.Along (fun e e' => e'.map S.view' = e.map S.view) (unary r path) (unary r' path') := by
  refine (word_along hpath (hv.get? _ rfl rfl)).bind fun op op' hop => ?_
  refine (word_along hpath (hv.get? _ rfl rfl)).bind fun category category' hcategory => ?_
  refine (required_along hr hpath hv rfl).bind fun operand operand' hoperand => ?_
  exact along_pure (by rw [hop, hcategory, Expr.map, Expr.map, hoperand])

/-- An operator with two operands. A left operand that fails does so on both sides, before the
right one is read. -/
theorem binary_along :
    S.Along (fun e e' => e'.map S.view' = e.map S.view) (binary r path) (binary r' path') := by
  refine (word_along hpath (hv.get? _ rfl rfl)).bind fun op op' hop => ?_
  refine (word_along hpath (hv.get? _ rfl rfl)).bind fun category category' hcategory => ?_
  refine (required_along hr hpath hv rfl).bind fun left left' hleft => ?_
  refine (required_along hr hpath hv rfl).bind fun right right' hright => ?_
  exact along_pure (by rw [hop, hcategory, Expr.map, Expr.map, hleft, hright])

/-- A comparison: its operator is a word, and no id. -/
theorem relational_along :
    S.Along (fun e e' => e'.map S.view' = e.map S.view) (relational r path)
      (relational r' path') := by
  refine (word_along hpath (hv.get? _ rfl rfl)).bind fun op op' hop => ?_
  refine (required_along hr hpath hv rfl).bind fun left left' hleft => ?_
  refine (required_along hr hpath hv rfl).bind fun right right' hright => ?_
  exact along_pure (by rw [hop, Expr.map, Expr.map, hleft, hright])

/-- A reference with subscripts. -/
theorem arrayRef_along :
    S.Along (fun e e' => e'.map S.view' = e.map S.view) (arrayRef r path)
      (arrayRef r' path') := by
  refine (dataRef_along hr hpath hv rfl).bind fun base base' hbase => ?_
  refine (list_along hpath hv rfl (subscript_along hr)).bind fun subscripts _ hsubscripts => ?_
  exact along_pure (by rw [Expr.map, Expr.map, hbase, hsubscripts])

/-- A coindexed reference, whose base is given by its id. -/
theorem coindexed_along :
    S.Along (fun e e' => e'.map S.view' = e.map S.view) (coindexed S.ids r path)
      (coindexed S.ids' r' path') := by
  refine (field_along hpath (hv.get? _ rfl rfl)).bind fun base base' hbase => ?_
  refine (list_along hpath hv rfl (subscript_along hr)).bind fun subscripts _ hsubscripts => ?_
  refine (list_along hpath hv rfl fun hp _ _ hw => hr.expr hw hp).bind
    fun cosubscripts _ hcosubscripts => ?_
  refine (optional_along hr hpath hv rfl).bind fun stat stat' hstat => ?_
  refine (optional_along hr hpath hv rfl).bind fun team team' hteam => ?_
  exact along_pure (by
    rw [Expr.map, Expr.map, hbase, hsubscripts, hcosubscripts, hstat, hteam])

/-- A component: the base is read before its id is looked up, on both sides. -/
theorem component_along :
    S.Along (fun e e' => e'.map S.view' = e.map S.view) (component S.ids r path)
      (component S.ids' r' path') := by
  refine (required_along hr hpath hv rfl).bind fun base base' hbase => ?_
  refine (field_along hpath (hv.get? _ rfl rfl)).bind fun c c' hc => ?_
  exact along_pure (by rw [Expr.map, Expr.map, DataRef.map, DataRef.map, hbase, hc])

/-- A substring: a bound is absent on both sides or on neither. -/
theorem substring_along :
    S.Along (fun e e' => e'.map S.view' = e.map S.view) (substring r path)
      (substring r' path') := by
  refine (required_along hr hpath hv rfl).bind fun parent parent' hparent => ?_
  refine (optional_along hr hpath hv rfl).bind fun lower lower' hlower => ?_
  refine (optional_along hr hpath hv rfl).bind fun upper upper' hupper => ?_
  exact along_pure (by rw [Expr.map, Expr.map, hparent, hlower, hupper])

/-- The word for a part is no id, so both sides know it or neither does. -/
theorem complexPart_along :
    S.Along (fun e e' => e'.map S.view' = e.map S.view) (complexPart r path)
      (complexPart r' path') := by
  refine (required_along hr hpath hv rfl).bind fun complex complex' hcomplex => ?_
  have hpart : v'.get? "part" = v.get? "part" :=
    Json.eq_of_rel_plain (hv.get? "part" rfl rfl)
  have hsame (part : ComplexPart) : (Expr.complexPart complex' part).map S.view' =
      (Expr.complexPart complex part).map S.view := by
    rw [Expr.map, Expr.map, hcomplex]
  rw [hpart]
  split
  · exact along_pure (hsame _)
  · exact along_pure (hsame _)
  · exact expected_along (S.member hpath "part") _

/-- An array constructor: its values come in the same order. -/
theorem arrayConstructor_along :
    S.Along (fun e e' => e'.map S.view' = e.map S.view) (arrayConstructor r path)
      (arrayConstructor r' path') := by
  refine (word_along hpath (hv.get? _ rfl rfl)).bind fun category category' hcategory => ?_
  refine (list_along hpath hv rfl (arrayItem_along hr)).bind fun values values' hvalues => ?_
  exact along_pure (by rw [hcategory, Expr.map, Expr.map, hvalues])

/-- The values of components come in the same order, because that order is kept. -/
theorem structureConstructor_along :
    S.Along (fun e e' => e'.map S.view' = e.map S.view) (structureConstructor S.ids r path)
      (structureConstructor S.ids' r' path') := by
  refine (text_along hpath (hv.get? _ rfl rfl)).bind fun type type' htype => ?_
  have hparameters := S.member hpath "parameters"
  refine (members_along hpath hv .settings rfl (fun _ => rfl)
    fun u _ => ?_).bind fun entries entries' hentries => ?_
  · rw [Json.members_rename S.newIds .settings fun _ => rfl, List.map_map]
    rfl
  refine (along_mapM (R := fun p p' => p'.map S.view' = p.map S.view) hentries ?_).bind
    fun parameters parameters' hsettings => ?_
  · rintro ⟨name, w⟩ ⟨name', w'⟩ ⟨hname, hw⟩
    obtain rfl : name = name' := hname.symm
    refine (paramValue_along hr (S.member hparameters name) hw).bind fun value value' hvalue => ?_
    exact along_pure (by rw [ParamSetting.map, ParamSetting.map, hvalue])
  have hcomponents := S.member hpath "components"
  refine (members_along hpath hv .components rfl (fun _ => rfl)
    fun u hu => hu u (.self _ _)).bind fun entries entries' hentries => ?_
  refine (along_mapM (R := fun c c' => c'.map S.view' = c.map S.view) hentries ?_).bind
    fun components components' hvalues => ?_
  · rintro ⟨id, w⟩ ⟨id', w'⟩ ⟨hid, hw⟩
    obtain rfl : S.newIds.symbol id = id' := hid.symm
    refine (S.symbol (S.component hcomponents id) id).bind fun c c' hc => ?_
    refine (hr.expr hw (S.component hcomponents id)).bind fun value value' hvalue => ?_
    exact along_pure (by rw [ComponentValue.map, ComponentValue.map, hc, hvalue])
  have hsettings := map_eq_of_forall₂ hsettings
  have hvalues := map_eq_of_forall₂ hvalues
  exact along_pure (by rw [htype, Expr.map, Expr.map, hsettings, hvalues])

/-- An inquiry is about a type on both sides, or about an object on both. -/
theorem typeParamInquiry_along :
    S.Along (fun e e' => e'.map S.view' = e.map S.view) (typeParamInquiry S.ids r path)
      (typeParamInquiry S.ids' r' path') := by
  refine (field_along hpath (hv.get? _ rfl rfl)).bind fun parameter parameter' hparameter => ?_
  have hbase := hv.get? "base" rfl rfl
  generalize v.get? "base" = o at hbase ⊢
  generalize v'.get? "base" = o' at hbase ⊢
  cases hbase with
  | none => exact along_pure (by rw [Expr.map, Expr.map, hparameter])
  | some _ =>
    refine (dataRef_along hr hpath hv rfl).bind fun base base' hbase => ?_
    exact along_pure (by rw [Expr.map, Expr.map, hparameter, hbase])

/-- The word for a field is no id, so both sides know it or neither does. -/
theorem descriptorInquiry_along :
    S.Along (fun e e' => e'.map S.view' = e.map S.view) (descriptorInquiry r path)
      (descriptorInquiry r' path') := by
  have hfield : v'.get? "field" = v.get? "field" :=
    Json.eq_of_rel_plain (hv.get? "field" rfl rfl)
  refine (dataRef_along hr hpath hv rfl).bind fun base base' hbase => ?_
  rw [hfield]
  refine (wordOf_along (S.member hpath "field") _).bind fun field field' hfield => ?_
  refine (count_along hpath (hv.get? _ rfl rfl) 0).bind
    fun dimension dimension' hdimension => ?_
  exact along_pure (by rw [hfield, hdimension, Expr.map, Expr.map, hbase])

/-- **A node of any kind.** -/
theorem expr_along :
    S.Along (fun e e' => e'.map S.view' = e.map S.view) (expr S.ids r path)
      (expr S.ids' r' path') := by
  refine (object_along hpath (.some hv)).bind fun _ _ _ => ?_
  refine (word_along hpath (hv.get? _ rfl rfl)).bind fun kind kind' hkind => ?_
  subst hkind
  cases kind' with
  | symbol =>
    refine (field_along hpath (hv.get? _ rfl rfl)).map fun s s' hs => ?_
    rw [Expr.map, Expr.map, DataRef.map, DataRef.map, hs]
  | constant =>
    exact (constant_along hpath hv).map fun c c' hc => by rw [hc, Expr.map, Expr.map]
  | boz =>
    refine Read.Along.map (Q := fun bits bits' => bits' = bits) ?_ fun bits bits' hbits => ?_
    · exact (boz_along hpath hv).bind fun n n' hn => along_pure (by rw [hn])
    · rw [hbits, Expr.map, Expr.map]
  | null => exact along_pure (by rw [Expr.map, Expr.map])
  | staticData => exact staticData_along hpath hv
  | procedure =>
    exact (procedure_along hpath hv).map fun proc proc' hproc => by
      rw [Expr.map, Expr.map, hproc]
  | call => exact call_along hr hpath hv
  | unary => exact unary_along hr hpath hv
  | binary => exact binary_along hr hpath hv
  | parens =>
    exact (required_along hr hpath hv rfl).map fun operand operand' hoperand => by
      rw [Expr.map, Expr.map, hoperand]
  | relational => exact relational_along hr hpath hv
  | arrayRef => exact arrayRef_along hr hpath hv
  | coarrayRef => exact coindexed_along hr hpath hv
  | component => exact component_along hr hpath hv
  | substring => exact substring_along hr hpath hv
  | complexPart => exact complexPart_along hr hpath hv
  | arrayConstructor => exact arrayConstructor_along hr hpath hv
  | structureConstructor => exact structureConstructor_along hr hpath hv
  | typeParamInquiry => exact typeParamInquiry_along hr hpath hv
  | descriptorInquiry => exact descriptorInquiry_along hr hpath hv

/-- A loop of an array constructor. -/
theorem loop_along :
    S.Along (fun l l' => l'.map S.view' = l.map S.view) (loop S.ids r path)
      (loop S.ids' r' path') := by
  refine (object_along hpath (.some hv)).bind fun _ _ _ => ?_
  refine (field_along hpath (hv.get? _ rfl rfl)).bind fun index index' hindex => ?_
  refine (required_along hr hpath hv rfl).bind fun lower lower' hlower => ?_
  refine (required_along hr hpath hv rfl).bind fun upper upper' hupper => ?_
  refine (optional_along hr hpath hv rfl).bind fun stride stride' hstride => ?_
  refine (list_along hpath hv rfl (arrayItem_along hr)).bind fun values values' hvalues => ?_
  exact along_pure (by
    rw [ImpliedDo.map, ImpliedDo.map, hindex, hlower, hupper, hstride, hvalues])

end Node

mutual

/-- **An expression is read along the same expression** under other ids. -/
theorem readExpr_along {v v' : Json} (hv : Renames S.newIds .expression v v') {path path' : Path}
    (hpath : S.Facing path path') :
    S.Along (fun e e' => e'.map S.view' = e.map S.view) (readExpr S.ids v path)
      (readExpr S.ids' v' path') := by
  rw [readExpr, readExpr]
  exact Node.expr_along ⟨fun {w} _ _ _ hw => readExpr_along hw, fun {w} _ _ _ hw =>
    readLoop_along hw⟩ hpath hv
termination_by sizeOf v
decreasing_by all_goals exact w.2

/-- **A loop is read along the same loop** under other ids. -/
theorem readLoop_along {v v' : Json} (hv : Renames S.newIds .expression v v') {path path' : Path}
    (hpath : S.Facing path path') :
    S.Along (fun l l' => l'.map S.view' = l.map S.view) (readLoop S.ids v path)
      (readLoop S.ids' v' path') := by
  rw [readLoop, readLoop]
  exact Node.loop_along ⟨fun {w} _ _ _ hw => readExpr_along hw, fun {w} _ _ _ hw =>
    readLoop_along hw⟩ hpath hv
termination_by sizeOf v
decreasing_by all_goals exact w.2

end

end FortranExpr
