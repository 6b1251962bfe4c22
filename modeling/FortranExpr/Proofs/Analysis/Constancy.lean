/-
# Which parts make an expression constant

An expression is constant when six conditions hold of everything that is reached from
it.  Nothing is entered below a call, a coindexed reference or an inquiry about a type
parameter; of every other item all parts are reached.

| reached | condition |
| --- | --- |
| a name, a component, a procedure by itself | a named constant, or the index of a loop |
| a coindexed reference | is not reached |
| a call | is one of the intrinsic `kind` |
| the value of a type parameter | is explicit |
| an inquiry about a type parameter | is about a kind parameter |
| an integer division | has a literal other than zero as its divisor |

`visit_constancy_iff` says what one step of the walk asks of an item and hands on to its
parts; `isConstant_iff_constantParts` is the whole walk.
-/

import FortranExpr.Analysis.Constancy
import FortranExpr.Proofs.Expr.Literal
import FortranExpr.Proofs.Traversal.Part
import FortranExpr.Proofs.Traversal.Stopping

namespace FortranExpr

namespace Symbol

/-- The value is known at compile time: the entity denoted is a data object with the
PARAMETER attribute, or the name itself belongs to the scope of an implied-DO loop. -/
def IsKnown (s : Symbol) : Prop :=
  ((∃ declared, s.ultimate.details = .object declared) ∧ .parameter ∈ s.ultimate.attrs) ∨
    s.owner.kind = .impliedDos

/-- The test of a name against what it is for a name to be known. -/
theorem isConstant_iff_isKnown {s : Symbol} : s.isConstant = true ↔ s.IsKnown := by
  have hobject : s.ultimate.details.object?.isSome = true ↔
      ∃ declared, s.ultimate.details = .object declared := by
    cases s.ultimate.details <;> simp [Details.object?]
  rw [isConstant, isNamedConstant, isImpliedDoIndex, has, Bool.or_eq_true, Bool.and_eq_true,
    hobject, List.contains_iff_mem, decide_eq_true_iff, IsKnown]

/-- A kind type parameter is one by what the symbol denotes, aliases resolved. -/
theorem isKindParameter_iff {s : Symbol} :
    s.isKindParameter = true ↔ s.ultimate.details = .typeParam .kind := by
  unfold isKindParameter
  split
  · rename_i h
    exact ⟨fun _ => h, fun _ => rfl⟩
  · rename_i h
    exact ⟨fun hf => absurd hf Bool.false_ne_true, fun hk => absurd hk h⟩

end Symbol

namespace Expr

variable {σ : Type}

/-- A scalar literal other than zero, in parentheses or not. -/
def IsDivisor (e : Expr σ) : Prop :=
  ∃ v, e.IsScalarLiteral v ∧ v ≠ .number 0 ∧ v ≠ .integer 0

/-- Zero is a number or an integer; a string is never zero. -/
theorem value_isZero_iff {v : Value} : v.isZero = true ↔ v = .number 0 ∨ v = .integer 0 := by
  cases v <;> simp [Value.isZero]

/-- The test for a divisor that is seen to be none, against what such a divisor is. -/
theorem isNonzeroLiteral_iff {e : Expr σ} : e.isNonzeroLiteral = true ↔ e.IsDivisor := by
  rw [isNonzeroLiteral, Option.any_eq_true]
  refine exists_congr fun v => and_congr scalarValue?_eq_some_iff ?_
  rw [Bool.not_eq_true', ← Bool.not_eq_true, value_isZero_iff, not_or]

end Expr

namespace Item

variable {σ : Type}

/-- The walk goes on to the parts of the item. -/
def IsOpen : Item σ → Prop
  | expr (.call _ _ _) | expr (.coindexed _ _ _ _ _) | expr (.typeParamInquiry _ _) => False
  | _ => True

/-- What constancy asks of an item itself, its parts apart. -/
def Admitted : Item Symbol → Prop
  | symbol s | expr (.entity (.symbol s)) => s.IsKnown
  | expr (.coindexed _ _ _ _ _) => False
  | expr (.call proc _ _) => proc = .intrinsic "kind"
  | expr (.typeParamInquiry parameter _) => parameter.ultimate.details = .typeParam .kind
  | expr (.binary op category _ right) => op = .divide → category = .integer → right.IsDivisor
  | param v => ∃ e, v = .explicit e
  | _ => True

end Item

namespace Expr

variable {σ : Type}

/-- `e.Reaches i`: a walk over `e` that stops at nothing but closed items comes to `i`. -/
inductive Reaches (e : Expr σ) : Item σ → Prop
  | root : Reaches e (.expr e)
  | part {i c} : Reaches e i → i.IsOpen → i.Part c → Reaches e c

/-- The conditions on everything that is reached from a constant expression. -/
structure ConstantParts (e : Expr Symbol) : Prop where
  name : ∀ s, e.Reaches (.expr (.entity (.symbol s))) → s.IsKnown
  component : ∀ base c, e.Reaches (.expr (.entity (.component base c))) → c.IsKnown
  procedure : ∀ s, e.Reaches (.expr (.designator (.user s))) → s.IsKnown
  coindexed : ∀ s subscripts cosubscripts stat team,
    ¬e.Reaches (.expr (.coindexed s subscripts cosubscripts stat team))
  call : ∀ proc args rank, e.Reaches (.expr (.call proc args rank)) → proc = .intrinsic "kind"
  param : ∀ v, e.Reaches (.param v) → ∃ x, v = .explicit x
  inquiry : ∀ parameter base, e.Reaches (.expr (.typeParamInquiry parameter base)) →
    parameter.ultimate.details = .typeParam .kind
  division : ∀ left right, e.Reaches (.expr (.binary .divide .integer left right)) →
    right.IsDivisor

/-! ### One step of the walk -/

/-- Only an integer division can be refused out of hand. -/
theorem constancyRule_binary (op : BinaryOp) (category : TypeCategory)
    (left right : Expr Symbol) :
    constancyRule (.expr (.binary op category left right)) =
      if op = .divide ∧ category = .integer ∧ right.isNonzeroLiteral = false then .answer false
      else .usual := by
  cases op <;> cases category <;> simp [constancyRule]
  cases right.isNonzeroLiteral <;> rfl

/-- Where nothing stands, nothing is in the way. -/
theorem visit_constancy_absent : constancy.visit .absent = true := by
  rw [Pass.visit_of_usual constancy rfl rfl]
  rfl

/-- A name is accepted when it is known. -/
theorem visit_constancy_named {i : Item Symbol} {s : Symbol} (h : constancy.rule i = .usual)
    (hs : i.named? = some s) : constancy.visit i = true ↔ s.IsKnown := by
  rw [Pass.visit_of_named constancy h hs]
  exact Symbol.isConstant_iff_isKnown

/-- Any other item is accepted when all of its parts are. -/
theorem visit_constancy_usual {i : Item Symbol} (h : constancy.rule i = .usual)
    (hs : i.named? = none) :
    constancy.visit i = true ↔ ∀ c, i.Part c → constancy.visit c = true := by
  have hall : constancy.visit i = i.children.all constancy.visit := by
    rw [Pass.visit_of_usual constancy h hs]
    exact Pass.visitAll_all Symbol.isConstant constancyRule constancy.visit true i.children
  rw [hall, List.all_eq_true]
  constructor
  · intro hc c hpart
    exact hc c hpart.mem_children
  · intro hc c hmem
    by_cases habsent : c = .absent
    · rw [habsent]
      exact visit_constancy_absent
    · exact hc c (Item.part_iff.2 ⟨hmem, habsent⟩)

/-- **One step of the walk:** an item is constant when it is admitted itself and, if it is
open, so are its parts. -/
theorem visit_constancy_iff (i : Item Symbol) :
    constancy.visit i = true ↔
      i.Admitted ∧ (i.IsOpen → ∀ c, i.Part c → constancy.visit c = true) := by
  have closed {r : Bool} (hrule : constancy.rule i = .answer r) (hopen : ¬i.IsOpen)
      (hr : r = true ↔ i.Admitted) : constancy.visit i = true ↔
        i.Admitted ∧ (i.IsOpen → ∀ c, i.Part c → constancy.visit c = true) := by
    rw [Pass.visit_of_answer constancy hrule]
    exact ⟨fun h => ⟨hr.1 h, fun ho => absurd ho hopen⟩, fun h => hr.2 h.1⟩
  have usual (hrule : constancy.rule i = .usual) (hs : i.named? = none) (hopen : i.IsOpen)
      (hadmitted : i.Admitted) : constancy.visit i = true ↔
        i.Admitted ∧ (i.IsOpen → ∀ c, i.Part c → constancy.visit c = true) := by
    rw [visit_constancy_usual hrule hs]
    exact ⟨fun h => ⟨hadmitted, fun _ => h⟩, fun h => h.2 hopen⟩
  cases i with
  | absent | subscript | triplet | impliedDo => exact usual rfl rfl trivial trivial
  | symbol s =>
    rw [visit_constancy_named rfl rfl]
    exact ⟨fun h => ⟨h, fun _ c hc => nomatch hc⟩, fun h => h.1⟩
  | param v =>
    cases v with
    | explicit x => exact usual rfl rfl trivial ⟨x, rfl⟩
    | assumed | deferred =>
      rw [Pass.visit_of_answer constancy (r := false) rfl]
      refine ⟨fun h => absurd h Bool.false_ne_true, ?_⟩
      rintro ⟨⟨x, hx⟩, _⟩
      cases hx
  | expr e =>
    cases e with
    | entity ref =>
      cases ref with
      | symbol s =>
        rw [visit_constancy_named rfl rfl]
        exact ⟨fun h => ⟨h, fun _ c hc => nomatch hc⟩, fun h => h.1⟩
      | component base c => exact usual rfl rfl trivial trivial
    | call proc args rank =>
      refine closed (r := proc.isIntrinsic "kind") rfl id ?_
      cases proc <;> simp [Procedure.isIntrinsic, Item.Admitted]
    | coindexed => exact closed (r := false) rfl id ⟨Bool.false_ne_true, False.elim⟩
    | typeParamInquiry parameter base =>
      exact closed (r := parameter.isKindParameter) rfl id Symbol.isKindParameter_iff
    | binary op category left right =>
      have hrule := constancyRule_binary op category left right
      split at hrule
      · rename_i hzero
        obtain ⟨hop, hcategory, hdivisor⟩ := hzero
        rw [Pass.visit_of_answer constancy hrule]
        refine ⟨fun h => absurd h Bool.false_ne_true, fun h => ?_⟩
        have hd := isNonzeroLiteral_iff.2 (h.1 hop hcategory)
        rw [hdivisor] at hd
        cases hd
      · rename_i hzero
        refine usual hrule rfl trivial fun hop hcategory => isNonzeroLiteral_iff.1 ?_
        cases hd : right.isNonzeroLiteral with
        | true => rfl
        | false => exact absurd ⟨hop, hcategory, hd⟩ hzero
    | _ => exact usual rfl rfl trivial trivial

/-- Nothing but its name decides whether a call is constant. -/
theorem isConstant_call (proc : Procedure Symbol) (args : List (Slot Symbol)) (rank : Binary64) :
    (call proc args rank).isConstant = proc.isIntrinsic "kind" :=
  Pass.visit_of_answer constancy rfl

/-! ### The whole walk -/

/-- What an accepted expression reaches is accepted. -/
theorem visit_constancy_of_reaches {e : Expr Symbol} (h : e.isConstant = true) {i : Item Symbol}
    (hi : e.Reaches i) : constancy.visit i = true := by
  induction hi with
  | root => exact h
  | part _ hopen hpart ih => exact ((visit_constancy_iff _).1 ih).2 hopen _ hpart

/-- Where everything that is reached is admitted, everything is accepted. -/
theorem visit_constancy_of_admitted {e : Expr Symbol} (h : ∀ i, e.Reaches i → i.Admitted)
    (i : Item Symbol) (hi : e.Reaches i) : constancy.visit i = true := by
  induction i using Item.induction with
  | step i ih =>
    refine (visit_constancy_iff i).2 ⟨h i hi, fun hopen c hpart => ?_⟩
    exact ih c hpart.mem_children (.part hi hopen hpart)

/-- The walk accepts an expression when everything it reaches is admitted. -/
theorem isConstant_iff_admitted (e : Expr Symbol) :
    e.isConstant = true ↔ ∀ i, e.Reaches i → i.Admitted :=
  ⟨fun h i hi => ((visit_constancy_iff i).1 (visit_constancy_of_reaches h hi)).1,
    fun h => visit_constancy_of_admitted h (.expr e) .root⟩

/-- A symbol is reached as the name of a component or of a procedure by itself. -/
theorem reaches_symbol {e : Expr Symbol} {s : Symbol} (h : e.Reaches (.symbol s)) :
    (∃ base, e.Reaches (.expr (.entity (.component base s)))) ∨
      e.Reaches (.expr (.designator (.user s))) := by
  cases h with
  | part hi hopen hpart =>
    cases hpart with
    | componentName => exact .inl ⟨_, hi⟩
    | procedure => exact .inr hi
    | coarray => exact hopen.elim

/-- The conditions on the parts, all at once. -/
theorem constantParts_iff_admitted (e : Expr Symbol) :
    e.ConstantParts ↔ ∀ i, e.Reaches i → i.Admitted := by
  constructor
  · intro h i hi
    unfold Item.Admitted
    split
    · rcases reaches_symbol hi with ⟨base, hb⟩ | hp
      · exact h.component _ _ hb
      · exact h.procedure _ hp
    · exact h.name _ hi
    · exact h.coindexed _ _ _ _ _ hi
    · exact h.call _ _ _ hi
    · exact h.inquiry _ _ hi
    · rintro rfl rfl
      exact h.division _ _ hi
    · exact h.param _ hi
    · trivial
  · intro h
    exact {
      name := fun _ hi => h _ hi
      component := fun _ _ hi => h _ (.part hi trivial .componentName)
      procedure := fun _ hi => h _ (.part hi trivial .procedure)
      coindexed := fun _ _ _ _ _ hi => h _ hi
      call := fun _ _ _ hi => h _ hi
      param := fun _ hi => h _ hi
      inquiry := fun _ _ hi => h _ hi
      division := fun _ _ hi => h _ hi rfl rfl }

/-- **What a constant expression is:** the six conditions hold of everything reached from
it.  The walk may stop at the first part that fails one of them: a walk over the whole
expression has the same result. -/
theorem isConstant_iff_constantParts (e : Expr Symbol) :
    (e.isConstant = true ↔ e.ConstantParts) ∧ constancy.exhaustive.run e = e.isConstant :=
  ⟨(isConstant_iff_admitted e).trans (constantParts_iff_admitted e).symm,
    Pass.visit_exhaustive (Pass.all_absorbing Symbol.isConstant constancyRule) (.expr e)⟩

end Expr
end FortranExpr
