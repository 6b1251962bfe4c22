/-
# Constancy through aliases

An expression over aliases is to be constant when it is over the entities that they denote.
What constancy asks of a symbol is asked of the entity, with one exception: whether a name is
the index of a loop is told by the scope of the name itself.

| asked of a symbol | of the name | of the entity denoted |
| --- | --- | --- |
| a data object with PARAMETER | | yes |
| a kind type parameter | | yes |
| belongs to the scope of an implied-DO loop | yes | |

So nothing changes when the entities are put in the places of their aliases, as long as every
name that constancy comes to is a named constant, or is the name of an index where the entity
is an index (`Symbol.KeepsIndex`).  An alias of a variable that belongs to the scope of a loop
is a constant expression, and the variable is none (`isConstant_aliasInLoop`).
-/

import FortranExpr.Proofs.Analysis.Constancy
import FortranExpr.Proofs.Expr.Replace
import FortranExpr.Proofs.Symbol
import FortranExpr.Proofs.Traversal.Occurrence

namespace FortranExpr

/-! ### Names that constancy comes to -/

/-- The walk comes to an item that names the symbol: a name, a component or a procedure by
itself. -/
def Expr.Names {σ : Type} (e : Expr σ) (s : σ) : Prop := ∃ i, e.Reaches i ∧ i.named? = some s

/-- What the walk comes to has no other occurrences of symbols than the expression. -/
theorem Expr.occurrences_subset_of_reaches {σ : Type} {e : Expr σ} {i : Item σ}
    (h : e.Reaches i) : i.occurrences ⊆ e.occurrences := by
  induction h with
  | root => exact List.Subset.refl _
  | @part i c _ _ hpart ih =>
    have hnone : i.named? = none := by cases hpart <;> rfl
    rw [Item.occurrences_of_unnamed hnone] at ih
    exact fun s hs => ih (List.mem_flatMap.2 ⟨c, hpart.mem_children, hs⟩)

theorem Expr.Names.mem_occurrences {σ : Type} {e : Expr σ} {s : σ} (h : e.Names s) :
    s ∈ e.occurrences := by
  obtain ⟨i, hi, hs⟩ := h
  refine occurrences_subset_of_reaches hi ?_
  rw [Item.occurrences_of_named hs]
  exact List.mem_singleton_self s

theorem Item.admitted_of_named {i : Item Symbol} {s : Symbol} (h : i.named? = some s) :
    i.Admitted ↔ s.IsKnown := by
  rcases named?_eq_some_iff.1 h with rfl | rfl <;> exact Iff.rfl

/-- Constancy asks that names are known, and something else of the other items. -/
theorem Expr.isConstant_iff_names (e : Expr Symbol) :
    e.isConstant = true ↔
      (∀ i, e.Reaches i → i.named? = none → i.Admitted) ∧ ∀ s, e.Names s → s.IsKnown := by
  rw [isConstant_iff_admitted]
  constructor
  · intro h
    exact ⟨fun i hi _ => h i hi, fun s ⟨i, hi, hs⟩ => (Item.admitted_of_named hs).1 (h i hi)⟩
  · rintro ⟨hother, hnames⟩ i hi
    cases hs : i.named? with
    | none => exact hother i hi hs
    | some s => exact (Item.admitted_of_named hs).2 (hnames s ⟨i, hi, hs⟩)

/-! ### The walk over other symbols -/

section Replace

variable {σ : Type} {f : σ → σ}

namespace Item

theorem replace_eq_absent_iff {i : Item σ} : i.replace f = .absent ↔ i = .absent := by
  cases i <;> simp [replace]

/-- The parts of an item with other symbols are its parts, with other symbols. -/
theorem part_replace_iff {i d : Item σ} :
    (i.replace f).Part d ↔ ∃ c, i.Part c ∧ c.replace f = d := by
  rw [part_iff, children_replace, List.mem_map]
  constructor
  · rintro ⟨⟨c, hc, rfl⟩, habsent⟩
    exact ⟨c, part_iff.2 ⟨hc, mt replace_eq_absent_iff.2 habsent⟩, rfl⟩
  · rintro ⟨c, hc, rfl⟩
    obtain ⟨hmem, habsent⟩ := part_iff.1 hc
    exact ⟨⟨c, hmem, rfl⟩, mt replace_eq_absent_iff.1 habsent⟩

theorem isOpen_replace_iff {i : Item σ} : (i.replace f).IsOpen ↔ i.IsOpen := by
  cases i with
  | expr e =>
    cases e with
    | typeParamInquiry parameter base => cases base <;> simp [replace, Expr.replace, IsOpen]
    | _ => simp [replace, Expr.replace, IsOpen]
  | _ => exact Iff.rfl

end Item

/-- **A walk over other symbols** comes to the same items, with other symbols. -/
theorem Expr.reaches_replace_iff {e : Expr σ} {j : Item σ} :
    (e.replace f).Reaches j ↔ ∃ i, e.Reaches i ∧ i.replace f = j := by
  constructor
  · intro h
    induction h with
    | root => exact ⟨.expr e, .root, rfl⟩
    | part _ hopen hpart ih =>
      obtain ⟨i, hi, rfl⟩ := ih
      obtain ⟨c, hc, rfl⟩ := Item.part_replace_iff.1 hpart
      exact ⟨c, .part hi (Item.isOpen_replace_iff.1 hopen) hc, rfl⟩
  · rintro ⟨i, hi, rfl⟩
    induction hi with
    | root => exact .root
    | part _ hopen hpart ih =>
      exact .part ih (Item.isOpen_replace_iff.2 hopen) (Item.part_replace_iff.2 ⟨_, hpart, rfl⟩)

theorem Expr.names_replace_iff {e : Expr σ} {t : σ} :
    (e.replace f).Names t ↔ ∃ s, e.Names s ∧ f s = t := by
  constructor
  · rintro ⟨j, hj, ht⟩
    obtain ⟨i, hi, rfl⟩ := reaches_replace_iff.1 hj
    rw [Item.named?_replace] at ht
    obtain ⟨s, hs, rfl⟩ := Option.map_eq_some_iff.1 ht
    exact ⟨s, ⟨i, hi, hs⟩, rfl⟩
  · rintro ⟨s, ⟨i, hi, hs⟩, rfl⟩
    refine ⟨i.replace f, reaches_replace_iff.2 ⟨i, hi, rfl⟩, ?_⟩
    rw [Item.named?_replace, hs, Option.map_some]

end Replace

/-! ### The entities denoted -/

namespace Expr

/-- A literal names no symbols, and is the same with others in their places. -/
theorem isDivisor_replace_iff {σ : Type} {f : σ → σ} {e : Expr σ} :
    (e.replace f).IsDivisor ↔ e.IsDivisor := by
  have hmap : ((e.replace f).map fun _ => ()) = e.map fun _ => () :=
    map_replace (f := f) (h := fun _ => ()) (fun _ => rfl) e
  have hvalue : (e.replace f).scalarValue? = e.scalarValue? := by
    rw [← scalarValue?_map (fun _ => ()), hmap, scalarValue?_map]
  rw [← isNonzeroLiteral_iff, ← isNonzeroLiteral_iff, isNonzeroLiteral, hvalue, isNonzeroLiteral]

/-- Of an item that names no symbol, constancy asks the same over the entities. -/
theorem admitted_replace_ultimate_iff {i : Item Symbol} (h : i.named? = none) :
    (i.replace Symbol.ultimate).Admitted ↔ i.Admitted := by
  cases i with
  | symbol s => cases h
  | param v => cases v <;> simp [Item.replace, ParamValue.replace, Item.Admitted]
  | expr e =>
    cases e with
    | entity ref =>
      cases ref with
      | symbol s => cases h
      | component base c => simp [Item.replace, replace, DataRef.replace, Item.Admitted]
    | call proc args rank =>
      cases proc <;> simp [Item.replace, replace, Procedure.map, Item.Admitted]
    | binary op category left right =>
      simp only [Item.replace, replace, Item.Admitted, isDivisor_replace_iff]
    | typeParamInquiry parameter base =>
      cases base <;>
        simp only [Item.replace, replace, Item.Admitted, Symbol.ultimate_ultimate]
    | _ => simp [Item.replace, replace, Item.Admitted]
  | _ => exact Iff.rfl

/-- **Over the entities,** constancy asks the same of all items, and of names that the entities
denoted are known. -/
theorem isConstant_replace_ultimate_iff (e : Expr Symbol) :
    (e.replace Symbol.ultimate).isConstant = true ↔
      (∀ i, e.Reaches i → i.named? = none → i.Admitted) ∧
        ∀ s, e.Names s → s.ultimate.IsKnown := by
  rw [isConstant_iff_names]
  refine and_congr ⟨fun h i hi hnone => ?_, fun h j hj hnone => ?_⟩
    ⟨fun h s hs => ?_, fun h t ht => ?_⟩
  · refine (admitted_replace_ultimate_iff hnone).1 (h _ (reaches_replace_iff.2 ⟨i, hi, rfl⟩) ?_)
    rw [Item.named?_replace, hnone, Option.map_none]
  · obtain ⟨i, hi, rfl⟩ := reaches_replace_iff.1 hj
    rw [Item.named?_replace, Option.map_eq_none_iff] at hnone
    exact (admitted_replace_ultimate_iff hnone).2 (h i hi hnone)
  · exact h _ (names_replace_iff.2 ⟨s, hs, rfl⟩)
  · obtain ⟨s, hs, rfl⟩ := names_replace_iff.1 ht
    exact h s hs

end Expr

/-- The name is a named constant, or is the name of the index of a loop exactly when the entity
denoted is one. -/
def Symbol.KeepsIndex (s : Symbol) : Prop :=
  s.isNamedConstant = true ∨ s.isImpliedDoIndex = s.ultimate.isImpliedDoIndex

theorem Symbol.isConstant_ultimate_iff {s : Symbol} :
    s.ultimate.isConstant = s.isConstant ↔ s.KeepsIndex := by
  have hnamed : s.ultimate.isNamedConstant = s.isNamedConstant := by
    rw [isNamedConstant, ultimate_ultimate, isNamedConstant]
  rw [isConstant, isConstant, hnamed, KeepsIndex]
  cases s.isNamedConstant <;> simp [eq_comm]

namespace Expr

/-- **Aliases change the constancy of an expression by loop indices alone.**  Where every name
that constancy comes to is a named constant, or the name of an index exactly when it denotes
one, an expression is constant as it is over the entities denoted; and a name by itself is so
in no other case. -/
theorem isConstant_replace_ultimate (e : Expr Symbol) :
    ((∀ s, e.Names s → s.KeepsIndex) →
      (e.replace Symbol.ultimate).isConstant = e.isConstant) ∧
    ∀ s : Symbol, ((entity (.symbol s)).replace Symbol.ultimate).isConstant =
      (entity (.symbol s)).isConstant ↔ s.KeepsIndex := by
  constructor
  · intro h
    have hnames : (∀ s, e.Names s → s.ultimate.IsKnown) ↔ ∀ s, e.Names s → s.IsKnown :=
      forall₂_congr fun s hs => by
        rw [← Symbol.isConstant_iff_isKnown, ← Symbol.isConstant_iff_isKnown,
          Symbol.isConstant_ultimate_iff.2 (h s hs)]
    rw [Bool.eq_iff_iff, isConstant_replace_ultimate_iff, isConstant_iff_names, hnames]
  · intro s
    have hname (t : Symbol) : (entity (.symbol t)).isConstant = t.isConstant :=
      Pass.visit_of_named constancy rfl rfl
    rw [replace, DataRef.replace, hname, hname]
    exact Symbol.isConstant_ultimate_iff

/-- The constructor `[((i + k, j = 1, 2), i = 1, 2)]`.  In the inner loop `i` is an alias of the
index of the outer loop, and `k` an alias of an alias of a named constant. -/
def nestedLoops : Expr Symbol :=
  let f : Scope := .child (.child .global 0 .module "m") 1 .subprogram "f"
  let outer : Scope := .child f 2 .impliedDos ""
  let inner : Scope := .child outer 3 .impliedDos ""
  let object (serial : Nat) (name : String) (owner : Scope) (attrs : List Attr) : Symbol :=
    ⟨serial, name, owner, .object ⟨0, 0, .explicit, false, none, none⟩, attrs⟩
  let k : Symbol := ⟨1, "k", f, .use (object 0 "k" (.child .global 0 .module "m") [.parameter]), []⟩
  let i : Symbol := object 2 "i" outer []
  let literal (n : Int) : Expr Symbol := .constant ⟨.integer, [.integer n], []⟩
  .arrayConstructor .integer [.impliedDo ⟨i, literal 1, literal 2, .empty,
    [.impliedDo ⟨object 3 "j" inner [], literal 1, literal 2, .empty,
      [.expr (.binary .add .integer (.entity (.symbol ⟨4, "i", inner, .hostAssoc i, []⟩))
        (.entity (.symbol ⟨5, "k", inner, .hostAssoc k, []⟩)))]⟩]⟩]

/-- The constructor `[((i + k, j = 1, 2), i = 1, 2)]` is constant over the entities denoted, as
it is over their aliases. -/
theorem isConstant_replace_nestedLoops :
    (∀ s, nestedLoops.Names s → s.KeepsIndex) ∧
      (nestedLoops.replace Symbol.ultimate).isConstant = nestedLoops.isConstant ∧
      nestedLoops.isConstant = true := by
  have hkeeps : ∀ s, nestedLoops.Names s → s.KeepsIndex := by
    have hall : ∀ s ∈ nestedLoops.occurrences, s.KeepsIndex := by
      simp [nestedLoops, occurrences, ArrayItem.occurrences, ImpliedDo.occurrences,
        Slot.occurrences, DataRef.occurrences, Symbol.KeepsIndex, Symbol.isNamedConstant,
        Symbol.isImpliedDoIndex, Symbol.ultimate, Symbol.has, Details.object?, Scope.kind]
    exact fun s hs => hall s hs.mem_occurrences
  exact ⟨hkeeps, (isConstant_replace_ultimate nestedLoops).1 hkeeps, by decide +kernel⟩

/-- **An alias that belongs to the scope of a loop** is constant though the variable that it
denotes is none, and an alias of the index that belongs to no such scope is not, though the
index is. -/
theorem isConstant_aliasInLoop :
    let m : Scope := .child .global 0 .module "m"
    let loop : Scope := .child .global 1 .impliedDos ""
    let object (name : String) (owner : Scope) : Symbol :=
      ⟨0, name, owner, .object ⟨0, 0, .explicit, false, none, none⟩, []⟩
    let associated (owner : Scope) (s : Symbol) : Expr Symbol :=
      .entity (.symbol ⟨1, "y", owner, .use s, []⟩)
    ((associated loop (object "x" m)).isConstant = true ∧
      ((associated loop (object "x" m)).replace Symbol.ultimate).isConstant = false) ∧
    ((associated m (object "i" loop)).isConstant = false ∧
      ((associated m (object "i" loop)).replace Symbol.ultimate).isConstant = true) := by
  decide +kernel

end Expr
end FortranExpr
