/-
# What an initial data target designates

From a designator the way leads over its bases and parents to the object that it is a part
of, or to no object at all.  The judgement on an initial data target follows that way.

| on the way | asked |
| --- | --- |
| a component | is not ALLOCATABLE |
| an element subscript | is a scalar constant |
| a bound or a stride, of a section or a substring | is constant when it is there |

| at its end | asked |
| --- | --- |
| `null()` | nothing |
| a name | the object is static (`Symbol.IsStaticObject`) |
| a procedure | the same of its symbol, if it has one |
| every other node | is rejected |

A procedure is no initial data target, and still nothing rejects it: of an intrinsic one
nothing is even said.  `targetVerdict_eq_plain_true_iff` keeps that row apart from the
others.
-/

import FortranExpr.Analysis.InitialTarget
import FortranExpr.Proofs.Number.Exact
import FortranExpr.Proofs.Traversal.Stopping

namespace FortranExpr

/-! ### The way to the object -/

namespace Expr

variable {σ : Type} {e x y : Expr σ}

/-- What an expression is a part of, or has in parentheses. -/
def whole? : Expr σ → Option (Expr σ)
  | parens operand => some operand
  | entity (.component base _) => some base
  | arrayRef base _ => some (entity base)
  | substring parent _ _ => some parent
  | complexPart complex _ => some complex
  | _ => none

/-- `e.LeadsTo x`: the way from `e` comes to `x`. -/
inductive LeadsTo : Expr σ → Expr σ → Prop
  | here {e : Expr σ} : LeadsTo e e
  | step {e w x : Expr σ} : e.whole? = some w → LeadsTo w x → LeadsTo e x

/-- What an expression is a part of is one of its parts in the tree. -/
theorem mem_children_of_whole? {w : Expr σ} (h : e.whole? = some w) :
    .expr w ∈ (Item.expr e).children := by
  cases e with
  | entity ref =>
    cases ref with
    | symbol => cases h
    | component base c =>
      obtain rfl := Option.some.inj h
      exact List.mem_cons_self
  | parens | arrayRef | substring | complexPart =>
    obtain rfl := Option.some.inj h
    exact List.mem_cons_self
  | _ => cases h

/-- Induction along the way: what holds of an expression as soon as it holds of what the
expression is a part of holds of every expression. -/
theorem wholeInduction {motive : Expr σ → Prop}
    (step : ∀ e : Expr σ, (∀ w, e.whole? = some w → motive w) → motive e) (e : Expr σ) :
    motive e :=
  step e fun w _ => wholeInduction step w
termination_by sizeOf (Item.expr e)
decreasing_by exact Item.sizeOf_lt_of_mem_children (mem_children_of_whole? ‹_›)

/-- Every way ends. -/
theorem exists_end (e : Expr σ) : ∃ x, e.LeadsTo x ∧ x.whole? = none := by
  induction e using wholeInduction with
  | step e ih =>
    cases hw : e.whole? with
    | none => exact ⟨e, .here, hw⟩
    | some w =>
      obtain ⟨x, hx, hend⟩ := ih w hw
      exact ⟨x, .step hw hx, hend⟩

/-- A way has one end. -/
theorem LeadsTo.end_unique (hx : e.LeadsTo x) (hy : e.LeadsTo y) (hxend : x.whole? = none)
    (hyend : y.whole? = none) : x = y := by
  induction hx with
  | here =>
    cases hy with
    | here => rfl
    | step hw _ => rw [hxend] at hw; cases hw
  | step hw _ ih =>
    cases hy with
    | here => rw [hyend] at hw; cases hw
    | step hw' hy' =>
      obtain rfl := Option.some.inj (hw.symm.trans hw')
      exact ih hy' hxend

end Expr

/-! ### What is asked on the way and at its end -/

/-- A whole number that is neither negative nor positive. -/
theorem Binary64.eq_zero_of_isCount {x : Binary64} (hcount : x.isCount = true)
    (hpositive : x.isPositive = false) : x = 0 := by
  obtain ⟨n, rfl⟩ := isCount_iff.1 hcount
  have hzero : (n : Rat) = 0 :=
    Rat.le_antisymm (Rat.not_lt.1 (of_decide_eq_false hpositive)) Rat.natCast_nonneg
  rw [hzero]
  rfl

namespace Symbol

/-- The entity denoted is a data object with static storage that a pointer may have as its
target. -/
structure IsStaticObject (s : Symbol) : Prop where
  target : s.ultimate.has .target = true
  saved : s.ultimate.isSaved = true
  notAllocatable : s.ultimate.isAllocatable = false
  notCoarray : s.ultimate.corank.isPositive = false

/-- A static object is one without faults. -/
theorem targetFindings_eq_nil_iff {s : Symbol} : s.targetFindings = [] ↔ s.IsStaticObject := by
  have finding (wrong : Bool) (fault : TargetFault) (name : String) :
      (if wrong = true then [(⟨fault, name⟩ : TargetFinding)] else []) = [] ↔ wrong = false := by
    cases wrong <;> simp
  simp only [targetFindings, List.append_eq_nil_iff, finding, Bool.not_eq_false']
  constructor
  · rintro ⟨⟨⟨hallocatable, hcoarray⟩, htarget⟩, hsaved⟩
    exact ⟨htarget, hsaved, hallocatable, hcoarray⟩
  · rintro ⟨htarget, hsaved, hallocatable, hcoarray⟩
    exact ⟨⟨⟨hallocatable, hcoarray⟩, htarget⟩, hsaved⟩

/-- A component is without fault unless it is ALLOCATABLE. -/
theorem componentFindings_eq_nil_iff {s : Symbol} :
    s.componentFindings = [] ↔ s.isAllocatable = false := by
  unfold componentFindings
  cases s.isAllocatable <;> simp

end Symbol

/-- A slot is constant unless something else stands in it. -/
theorem Slot.isConstant_iff {s : Slot Symbol} :
    s.isConstant = true ↔ ∀ x, s = .filled x → x.isConstant = true := by
  cases s with
  | empty => exact ⟨fun _ _ hx => (nomatch hx), fun _ => rfl⟩
  | filled e =>
    constructor
    · rintro h x ⟨⟩
      exact h
    · intro h
      exact h e rfl

namespace Expr

/-- What the judgement asks of an expression itself, apart from what it is a part of. -/
def IsAdmittedTarget : Expr Symbol → Prop
  | nullPointer | designator (.intrinsic _) | parens _ | complexPart _ _ => True
  | entity (.symbol s) | designator (.user s) => s.IsStaticObject
  | entity (.component _ c) => c.isAllocatable = false
  | arrayRef _ subscripts => ∀ s ∈ subscripts, s.isStatic = true
  | substring _ lower upper => lower.isConstant = true ∧ upper.isConstant = true
  | _ => False

/-- Nothing on the way from an expression to its object waits for the program to run. -/
structure HasStaticWay (e : Expr Symbol) : Prop where
  component : ∀ base c, e.LeadsTo (.entity (.component base c)) → c.isAllocatable = false
  element : ∀ base subscripts x, e.LeadsTo (.arrayRef base subscripts) →
    .element x ∈ subscripts → x.rank = 0 ∧ x.isConstant = true
  triplet : ∀ base subscripts t x, e.LeadsTo (.arrayRef base subscripts) →
    .triplet t ∈ subscripts → t.lower = .filled x ∨ t.upper = .filled x ∨ t.stride = .filled x →
    x.isConstant = true
  bound : ∀ parent lower upper x, e.LeadsTo (.substring parent lower upper) →
    lower = .filled x ∨ upper = .filled x → x.isConstant = true

/-- `null()`, or a designator of a static object. -/
def IsStaticTarget (e : Expr Symbol) : Prop :=
  e.HasStaticWay ∧
    (e.LeadsTo .nullPointer ∨ ∃ s, e.LeadsTo (.entity (.symbol s)) ∧ s.IsStaticObject)

/-- A procedure, intrinsic or with a symbol to which nothing is missing. -/
def IsFaultlessProcedure (e : Expr Symbol) : Prop :=
  e.HasStaticWay ∧
    ∃ proc, e.LeadsTo (.designator proc) ∧ ∀ s, proc = .user s → s.IsStaticObject

end Expr

/-! ### The judgement on each form -/

namespace TargetVerdict

/-- A plain acceptance adds nothing. -/
theorem plain_true_and (v : TargetVerdict) : (plain true).and v = v := rfl

/-- What is rejected stays as it is. -/
theorem and_plain_of_rejected {v : TargetVerdict} (h : v.accepted = false) (b : Bool) :
    v.and (plain b) = v := by
  obtain ⟨accepted, findings⟩ := v
  obtain rfl : accepted = false := h
  rw [plain, TargetVerdict.and, List.append_nil, Bool.false_and]

/-- Two parts are accepted without findings when each of them is. -/
theorem and_eq_plain_true_iff {a b : TargetVerdict} :
    a.and b = .plain true ↔ a = .plain true ∧ b = .plain true := by
  obtain ⟨accepted, findings⟩ := a
  obtain ⟨accepted', findings'⟩ := b
  simp only [TargetVerdict.and, plain, TargetVerdict.mk.injEq, Bool.and_eq_true,
    List.append_eq_nil_iff]
  exact and_and_and_comm

theorem plain_eq_plain_true_iff {b : Bool} : plain b = plain true ↔ b = true := by
  rw [plain, plain, TargetVerdict.mk.injEq, and_iff_left rfl]

theorem mk_true_eq_plain_true_iff {findings : List TargetFinding} :
    (⟨true, findings⟩ : TargetVerdict) = plain true ↔ findings = [] := by
  rw [plain, TargetVerdict.mk.injEq, and_iff_right rfl]

end TargetVerdict

namespace Expr

/-- A name is accepted with the faults of the object. -/
theorem targetVerdict_symbol (s : Symbol) :
    (entity (.symbol s)).targetVerdict = ⟨true, s.targetFindings⟩ :=
  Pass.visit_of_named initialTarget rfl rfl

/-- The null pointer is accepted, and has no faults. -/
theorem targetVerdict_nullPointer : (nullPointer : Expr Symbol).targetVerdict = .plain true :=
  Pass.visit_of_usual initialTarget rfl rfl

/-- A procedure of the program is judged like a name. -/
theorem targetVerdict_procedure (s : Symbol) :
    (designator (.user s)).targetVerdict = ⟨true, s.targetFindings⟩ := by
  have hs : initialTarget.visit (.symbol s) = ⟨true, s.targetFindings⟩ :=
    Pass.visit_of_named initialTarget rfl rfl
  show initialTarget.visit (.expr (designator (.user s))) = _
  rw [Pass.visit_of_usual initialTarget rfl rfl]
  exact (Pass.visitAll_singleton initialTarget _ _ _).trans hs

/-- An intrinsic procedure is accepted, and nothing is said of it. -/
theorem targetVerdict_intrinsic (name : String) :
    (designator (.intrinsic name)).targetVerdict = .plain true := by
  have habsent : initialTarget.visit .absent = .plain true :=
    Pass.visit_of_usual initialTarget rfl rfl
  show initialTarget.visit (.expr (designator (.intrinsic name))) = _
  rw [Pass.visit_of_usual initialTarget rfl rfl]
  exact (Pass.visitAll_singleton initialTarget _ _ _).trans habsent

/-- Parentheses do not count. -/
theorem targetVerdict_parens (operand : Expr Symbol) :
    (parens operand).targetVerdict = operand.targetVerdict := by
  show initialTarget.visit (.expr (parens operand)) = _
  rw [Pass.visit_of_usual initialTarget rfl rfl]
  exact Pass.visitAll_singleton initialTarget _ _ _

/-- A part of a complex value is judged by the value. -/
theorem targetVerdict_complexPart (complex : Expr Symbol) (part : ComplexPart) :
    (complexPart complex part).targetVerdict = complex.targetVerdict := by
  show initialTarget.visit (.expr (complexPart complex part)) = _
  rw [Pass.visit_of_usual initialTarget rfl rfl]
  exact Pass.visitAll_singleton initialTarget _ _ _

/-- The fault of a component comes before those of its base. -/
theorem targetVerdict_component (base : Expr Symbol) (c : Symbol) :
    (entity (.component base c)).targetVerdict =
      (⟨true, c.componentFindings⟩ : TargetVerdict).and base.targetVerdict := by
  show initialTarget.visit (.expr (entity (.component base c))) = _
  rw [Pass.visit_of_firstPart initialTarget rfl]
  exact Pass.visitAll_singleton initialTarget _ _ _

/-- A substring is judged by its parent, once its bounds are constant. -/
theorem targetVerdict_substring (parent : Expr Symbol) (lower upper : Slot Symbol) :
    (substring parent lower upper).targetVerdict =
      if lower.isConstant && upper.isConstant then parent.targetVerdict else .plain false := by
  show initialTarget.visit (.expr (substring parent lower upper)) = _
  by_cases h : (lower.isConstant && upper.isConstant) = true
  · have hrule : initialTarget.rule (.expr (substring parent lower upper)) =
        .firstPart (.plain true) := if_pos h
    rw [Pass.visit_of_firstPart initialTarget hrule, if_pos h]
    exact Pass.visitAll_singleton initialTarget _ _ _
  · have hrule : initialTarget.rule (.expr (substring parent lower upper)) =
        .answer (.plain false) := if_neg h
    rw [Pass.visit_of_answer initialTarget hrule, if_neg h]
    rfl

/-- Subscripts add no findings. -/
theorem visitAll_initialTarget_subscripts (acc : TargetVerdict)
    (subscripts : List (Subscript Symbol)) :
    initialTarget.visitAll initialTarget.visit acc (subscripts.map .subscript) =
      acc.and (.plain (subscripts.all Subscript.isStatic)) := by
  induction subscripts generalizing acc with
  | nil =>
    obtain ⟨accepted, findings⟩ := acc
    rw [List.map_nil, Pass.visitAll, List.all_nil, TargetVerdict.plain, TargetVerdict.and,
      Bool.and_true, List.append_nil]
  | cons s rest ih =>
    have hs : initialTarget.visit (.subscript s) = .plain s.isStatic :=
      Pass.visit_of_answer initialTarget rfl
    have hand : (acc.and (.plain s.isStatic)).and (.plain (rest.all Subscript.isStatic)) =
        acc.and (.plain ((s :: rest).all Subscript.isStatic)) := by
      simp only [TargetVerdict.and, TargetVerdict.plain, List.append_nil, List.all_cons,
        Bool.and_assoc]
    rw [List.map_cons, ← hand, ← hs]
    show (if (!(acc.and (initialTarget.visit (.subscript s))).accepted) = true then _ else _) = _
    split
    · rename_i h
      rw [TargetVerdict.and_plain_of_rejected (Bool.not_eq_true' _ ▸ h)]
      rfl
    · exact ih _

/-- An array reference is judged by its base and by its subscripts. -/
theorem targetVerdict_arrayRef (base : DataRef Symbol) (subscripts : List (Subscript Symbol)) :
    (arrayRef base subscripts).targetVerdict =
      (entity base).targetVerdict.and (.plain (subscripts.all Subscript.isStatic)) := by
  show initialTarget.visit (.expr (arrayRef base subscripts)) = _
  rw [Pass.visit_of_usual initialTarget rfl rfl]
  show (if (!(entity base).targetVerdict.accepted) = true then (entity base).targetVerdict
    else initialTarget.visitAll initialTarget.visit (entity base).targetVerdict
      (subscripts.map .subscript)) = _
  split
  · rename_i h
    rw [TargetVerdict.and_plain_of_rejected (Bool.not_eq_true' _ ▸ h)]
  · exact visitAll_initialTarget_subscripts _ _

/-- **One step of the judgement:** an expression is accepted without findings when it is
admitted itself and what it is a part of is accepted without findings. -/
theorem targetVerdict_eq_plain_true_iff_step (e : Expr Symbol) :
    e.targetVerdict = .plain true ↔
      e.IsAdmittedTarget ∧ ∀ w, e.whole? = some w → w.targetVerdict = .plain true := by
  cases e with
  | entity ref =>
    cases ref with
    | symbol s =>
      rw [targetVerdict_symbol, TargetVerdict.mk_true_eq_plain_true_iff,
        Symbol.targetFindings_eq_nil_iff]
      simp [IsAdmittedTarget, whole?]
    | component base c =>
      rw [targetVerdict_component, TargetVerdict.and_eq_plain_true_iff,
        TargetVerdict.mk_true_eq_plain_true_iff, Symbol.componentFindings_eq_nil_iff]
      simp [IsAdmittedTarget, whole?]
  | nullPointer => simp [targetVerdict_nullPointer, IsAdmittedTarget, whole?]
  | designator proc =>
    cases proc with
    | user s =>
      rw [targetVerdict_procedure, TargetVerdict.mk_true_eq_plain_true_iff,
        Symbol.targetFindings_eq_nil_iff]
      simp [IsAdmittedTarget, whole?]
    | intrinsic name => simp [targetVerdict_intrinsic, IsAdmittedTarget, whole?]
  | parens operand => simp [targetVerdict_parens, IsAdmittedTarget, whole?]
  | complexPart complex part => simp [targetVerdict_complexPart, IsAdmittedTarget, whole?]
  | arrayRef base subscripts =>
    rw [targetVerdict_arrayRef, TargetVerdict.and_eq_plain_true_iff,
      TargetVerdict.plain_eq_plain_true_iff, List.all_eq_true, and_comm]
    simp [IsAdmittedTarget, whole?]
  | substring parent lower upper =>
    rw [targetVerdict_substring]
    split
    · rename_i h
      simp [IsAdmittedTarget, whole?, (Bool.and_eq_true _ _).mp h]
    · rename_i h
      rw [Bool.and_eq_true] at h
      rw [TargetVerdict.plain_eq_plain_true_iff]
      exact ⟨fun hf => absurd hf Bool.false_ne_true, fun hw => absurd hw.1 h⟩
  | _ =>
    have hrejected {e : Expr Symbol} (hrule : targetRule (.expr e) = .answer (.plain false)) :
        e.targetVerdict = .plain false := Pass.visit_of_answer initialTarget hrule
    rw [hrejected rfl, TargetVerdict.plain_eq_plain_true_iff]
    exact ⟨fun hf => absurd hf Bool.false_ne_true, fun hw => hw.1.elim⟩

/-! ### The whole way -/

/-- An expression is accepted without findings when everything on its way is admitted. -/
theorem targetVerdict_eq_plain_true_iff_admitted (e : Expr Symbol) :
    e.targetVerdict = .plain true ↔ ∀ x, e.LeadsTo x → x.IsAdmittedTarget := by
  constructor
  · intro h x hx
    induction hx with
    | here => exact ((targetVerdict_eq_plain_true_iff_step _).1 h).1
    | step hw _ ih => exact ih (((targetVerdict_eq_plain_true_iff_step _).1 h).2 _ hw)
  · intro h
    induction e using wholeInduction with
    | step e ih =>
      refine (targetVerdict_eq_plain_true_iff_step e).2 ⟨h e .here, fun w hw => ?_⟩
      exact ih w hw fun x hx => h x (.step hw hx)

/-- A way of which every step is admitted is static. -/
theorem hasStaticWay_of_admitted {e : Expr Symbol} (h : ∀ x, e.LeadsTo x → x.IsAdmittedTarget) :
    e.HasStaticWay where
  component base c hx := h _ hx
  element base subscripts x hx hmem := by
    have hstatic := h _ hx _ hmem
    obtain ⟨hrank, hconstant⟩ := (Bool.and_eq_true _ _).mp hstatic
    exact ⟨of_decide_eq_true hrank, hconstant⟩
  triplet base subscripts t x hx hmem hfilled := by
    have hstatic := h _ hx _ hmem
    obtain ⟨hbounds, hstride⟩ := (Bool.and_eq_true _ _).mp hstatic
    obtain ⟨hlower, hupper⟩ := (Bool.and_eq_true _ _).mp hbounds
    rcases hfilled with hf | hf | hf
    · exact Slot.isConstant_iff.1 hlower x hf
    · exact Slot.isConstant_iff.1 hupper x hf
    · exact Slot.isConstant_iff.1 hstride x hf
  bound parent lower upper x hx hfilled := by
    obtain ⟨hlower, hupper⟩ := h _ hx
    rcases hfilled with hf | hf
    · exact Slot.isConstant_iff.1 hlower x hf
    · exact Slot.isConstant_iff.1 hupper x hf

/-- Only its end can be at fault on a static way. -/
theorem HasStaticWay.admitted {e y : Expr Symbol} (h : e.HasStaticWay) (hy : e.LeadsTo y)
    (hend : y.whole? = none) (hadmitted : y.IsAdmittedTarget) {x : Expr Symbol}
    (hx : e.LeadsTo x) : x.IsAdmittedTarget := by
  have last (hxend : x.whole? = none) : x.IsAdmittedTarget := by
    rw [hx.end_unique hy hxend hend]
    exact hadmitted
  cases x with
  | entity ref =>
    cases ref with
    | symbol s => exact last rfl
    | component base c => exact h.component base c hx
  | parens | complexPart => exact trivial
  | arrayRef base subscripts =>
    intro s hs
    cases s with
    | element x =>
      obtain ⟨hrank, hconstant⟩ := h.element base subscripts x hx hs
      exact (Bool.and_eq_true _ _).mpr ⟨decide_eq_true hrank, hconstant⟩
    | triplet t =>
      have hslots := h.triplet base subscripts t
      refine (Bool.and_eq_true _ _).mpr ⟨(Bool.and_eq_true _ _).mpr ⟨?_, ?_⟩, ?_⟩
      · exact Slot.isConstant_iff.2 fun x hf => hslots x hx hs (.inl hf)
      · exact Slot.isConstant_iff.2 fun x hf => hslots x hx hs (.inr (.inl hf))
      · exact Slot.isConstant_iff.2 fun x hf => hslots x hx hs (.inr (.inr hf))
  | substring parent lower upper =>
    constructor
    · exact Slot.isConstant_iff.2 fun x hf => h.bound parent lower upper x hx (.inl hf)
    · exact Slot.isConstant_iff.2 fun x hf => h.bound parent lower upper x hx (.inr hf)
  | _ => exact last rfl

/-- Along a static way the verdict is that at its end. -/
theorem targetVerdict_of_staticWay {e : Expr Symbol} (h : e.HasStaticWay) {y : Expr Symbol}
    (hy : e.LeadsTo y) (hend : y.whole? = none) (hadmitted : y.IsAdmittedTarget) :
    e.targetVerdict = .plain true :=
  (targetVerdict_eq_plain_true_iff_admitted e).2 fun _ hx => h.admitted hy hend hadmitted hx

/-- **What is accepted in silence:** `null()`, the designators of static objects, and the
procedures to whose symbol nothing is missing.  No expression is both, and a static object
whose corank is a whole number is no coarray: its corank is 0. -/
theorem targetVerdict_eq_plain_true_iff (e : Expr Symbol) :
    (e.targetVerdict = .plain true ↔ e.IsStaticTarget ∨ e.IsFaultlessProcedure) ∧
      ¬(e.IsStaticTarget ∧ e.IsFaultlessProcedure) ∧
      ∀ s : Symbol, s.IsStaticObject → s.ultimate.corank.isCount = true →
        s.ultimate.corank = 0 := by
  refine ⟨⟨fun h => ?_, ?_⟩, ?_, fun s hs hcount =>
    Binary64.eq_zero_of_isCount hcount hs.notCoarray⟩
  · -- the end of the way decides which of the two it is
    have hadmitted := (targetVerdict_eq_plain_true_iff_admitted e).1 h
    have hway := hasStaticWay_of_admitted hadmitted
    obtain ⟨y, hy, hend⟩ := e.exists_end
    have hyadmitted := hadmitted y hy
    cases y with
    | nullPointer => exact .inl ⟨hway, .inl hy⟩
    | entity ref =>
      cases ref with
      | symbol s => exact .inl ⟨hway, .inr ⟨s, hy, hyadmitted⟩⟩
      | component => cases hend
    | designator proc =>
      refine .inr ⟨hway, proc, hy, ?_⟩
      rintro s rfl
      exact hyadmitted
    | parens | complexPart | arrayRef | substring => cases hend
    | _ => exact hyadmitted.elim
  · rintro (⟨hway, hnull | ⟨s, hs, hstatic⟩⟩ | ⟨hway, proc, hproc, hsymbol⟩)
    · exact targetVerdict_of_staticWay hway hnull rfl trivial
    · exact targetVerdict_of_staticWay hway hs rfl hstatic
    · refine targetVerdict_of_staticWay hway hproc rfl ?_
      cases proc with
      | user s => exact hsymbol s rfl
      | intrinsic => trivial
  · rintro ⟨⟨_, hnull | ⟨s, hs, _⟩⟩, ⟨_, proc, hproc, _⟩⟩
    · cases hnull.end_unique hproc rfl rfl
    · cases hs.end_unique hproc rfl rfl

/-- **A procedure by itself is accepted in silence,** though it designates no object. -/
theorem targetVerdict_intrinsicDesignator :
    (designator (.intrinsic "sin") : Expr Symbol).targetVerdict = .plain true ∧
      ¬(designator (.intrinsic "sin") : Expr Symbol).IsStaticTarget := by
  constructor
  · exact targetVerdict_intrinsic "sin"
  · have hend : (designator (.intrinsic "sin") : Expr Symbol).whole? = none := rfl
    rintro ⟨_, hnull | ⟨s, hs, _⟩⟩
    · cases hnull.end_unique .here rfl hend
    · cases hs.end_unique .here rfl hend

end Expr
end FortranExpr
