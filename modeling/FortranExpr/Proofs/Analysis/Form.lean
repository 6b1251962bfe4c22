/-
# What the form of an expression depends on

Rank, corank, being a variable and being simply contiguous are answered from the form of an
expression, and from few answers of its symbols.

| asked | of a symbol |
| --- | --- |
| rank | its rank |
| corank | its corank, where it stands alone |
| variable | the function result, where it is called |
| simply contiguous | all of these but the corank, and whether its storage has no gaps |

So these answers are kept wherever symbols make room for others that answer alike
(`Symbol.KeepsForm`).  A literal is the same over any symbols, and so is the stride of a
section.
-/

import FortranExpr.Analysis.Contiguity
import FortranExpr.Proofs.Expr.Map

namespace FortranExpr

/-- The image of a symbol answers what the form of an expression asks as the symbol does. -/
structure Symbol.KeepsForm (f : Symbol → Symbol) : Prop where
  rank : ∀ s, (f s).rank = s.rank
  corank : ∀ s, (f s).corank = s.corank
  isContiguous : ∀ s, (f s).isContiguous = s.isContiguous
  result? : ∀ s table, (Procedure.user (f s)).result? table = (Procedure.user s).result? table

/-- Two expressions answer alike what their form is asked. -/
structure Expr.SameForm (x y : Expr Symbol) : Prop where
  rank : x.rank = y.rank
  corank : x.corank = y.corank
  isVariable : x.isVariable = y.isVariable
  contiguous? : ∀ table, x.contiguous? table = y.contiguous? table

namespace Expr.SameForm

variable {x y z : Expr Symbol}

/-- Having the same form goes both ways. -/
theorem symm (h : x.SameForm y) : y.SameForm x :=
  ⟨h.rank.symm, h.corank.symm, h.isVariable.symm, fun table => (h.contiguous? table).symm⟩

/-- Having the same form can be chained, as for an alias of an alias. -/
theorem trans (h : x.SameForm y) (h' : y.SameForm z) : x.SameForm z :=
  ⟨h.rank.trans h'.rank, h.corank.trans h'.corank, h.isVariable.trans h'.isVariable,
    fun table => (h.contiguous? table).trans (h'.contiguous? table)⟩

end Expr.SameForm

/-! ### Sections -/

section Sections

variable {σ τ : Type} (f : σ → τ)

/-- The stride of a triplet is one under other symbols: a literal mentions none. -/
theorem Triplet.isUnitStride_map (t : Triplet σ) : (t.map f).isUnitStride = t.isUnitStride := by
  obtain ⟨lower, upper, stride⟩ := t
  cases stride <;> simp [Triplet.map, Slot.map, Triplet.isUnitStride, Expr.integerValue?_map]

/-- A triplet without bounds has none under other symbols. -/
theorem Triplet.isUnbounded_map (t : Triplet σ) : (t.map f).isUnbounded = t.isUnbounded := by
  obtain ⟨lower, upper, stride⟩ := t
  cases lower <;> cases upper <;> simp [Triplet.map, Slot.map, Triplet.isUnbounded]

end Sections

variable {f : Symbol → Symbol}

namespace Subscript

/-- The scan of the subscripts asks a symbol for its rank alone. -/
theorem scanContiguous?_map (hrank : ∀ s, (f s).rank = s.rank) (triplets : Nat)
    (subscripts : List (Subscript Symbol)) :
    scanContiguous? triplets (subscripts.map fun s => s.map f) =
      scanContiguous? triplets subscripts := by
  induction subscripts generalizing triplets with
  | nil => rfl
  | cons s rest ih =>
    cases s with
    | triplet t =>
      simp only [List.map_cons, map, scanContiguous?, ih, t.isUnitStride_map, t.isUnbounded_map]
    | element e => simp only [List.map_cons, map, scanContiguous?, ih, e.rank_map hrank]

/-- **The subscripts of a section** over symbols of the same ranks allow the same. -/
theorem contiguousRank?_map (hrank : ∀ s, (f s).rank = s.rank)
    (subscripts : List (Subscript Symbol)) :
    contiguousRank? (subscripts.map fun s => s.map f) = contiguousRank? subscripts := by
  rw [contiguousRank?, ← List.map_reverse, scanContiguous?_map hrank, contiguousRank?]

end Subscript

/-! ### Expressions -/

namespace Procedure

/-- The result of a procedure is part of its form. -/
theorem result?_map (hf : Symbol.KeepsForm f) (proc : Procedure Symbol) (table : IntrinsicTable) :
    (proc.map f).result? table = proc.result? table := by
  cases proc with
  | user s => exact hf.result? s table
  | intrinsic name => rfl

end Procedure

namespace Expr

/-- The corank of an expression is that of the object it names. -/
theorem corank_map (hcorank : ∀ s, (f s).corank = s.corank) (e : Expr Symbol) :
    (e.map f).corank = e.corank := by
  cases e with
  | entity ref =>
    cases ref with
    | symbol s => rw [map, DataRef.map, corank, corank, hcorank]
    | component base c => rw [map, DataRef.map, corank, corank] <;> exact nofun
  | typeParamInquiry parameter base => cases base <;> simp [map, corank]
  | _ => simp [map, corank]

/-- Whether an expression is a variable is decided by its form. -/
theorem isVariable_map (hf : Symbol.KeepsForm f) (e : Expr Symbol) :
    (e.map f).isVariable = e.isVariable := by
  fun_induction isVariable e with
  | case5 parent lower upper ih => rw [map, isVariable, ih]
  | case6 s args rank =>
    rw [map, Procedure.map, isVariable]
    exact congrArg (Option.any _) (hf.result? s ∅)
  | case7 e hentity harrayRef hcoindexed hcomplexPart hsubstring hcall =>
    cases e with
    | entity ref => exact absurd rfl (hentity ref)
    | arrayRef base subscripts => exact absurd rfl (harrayRef base subscripts)
    | coindexed => exact absurd rfl (hcoindexed _ _ _ _ _)
    | complexPart complex part => exact absurd rfl (hcomplexPart complex part)
    | substring parent lower upper => exact absurd rfl (hsubstring parent lower upper)
    | call proc args rank =>
      cases proc with
      | user s => exact absurd rfl (hcall s args rank)
      | intrinsic name => rw [map, Procedure.map, isVariable] <;> exact nofun
    | typeParamInquiry parameter base => cases base <;> simp [map, isVariable]
    | _ => simp [map, isVariable]
  | _ => rw [map, isVariable]

/-- The contiguity of a reference with subscripts is decided by its form. -/
theorem isContiguousRef_map (hf : Symbol.KeepsForm f) (base : DataRef Symbol)
    (subscripts : List (Subscript Symbol)) :
    isContiguousRef (base.map f) (subscripts.map fun s => s.map f) =
      isContiguousRef base subscripts := by
  have hrank := (arrayRef base subscripts).rank_map hf.rank
  rw [map] at hrank
  rw [isContiguousRef, isContiguousRef, DataRef.lastSymbol_map, hf.isContiguous,
    Subscript.contiguousRank?_map hf.rank, hrank]

/-- The pass for contiguity takes the same steps under other symbols of the same form. -/
theorem contiguity_map (hf : Symbol.KeepsForm f) (table : IntrinsicTable) :
    (contiguity table).AgreesAlong f (contiguity table) where
  start := rfl
  combine := rfl
  decided := rfl
  symbol s := congrArg some (hf.isContiguous s)
  onVisit _ _ := rfl
  rule i := by
    show contiguityRule table (i.map _) = contiguityRule table i
    cases i with
    | expr e =>
      cases e with
      | entity ref =>
        cases ref <;>
          simp [map, DataRef.map, contiguityRule, Expr.rank_map hf.rank, hf.isContiguous]
      | arrayRef base subscripts => simp [map, contiguityRule, isContiguousRef_map hf]
      | coindexed base subscripts cosubscripts stat team =>
        simp [map, contiguityRule, Subscript.contiguousRank?_map hf.rank]
      | call proc args rank => simp [map, contiguityRule, Procedure.result?_map hf]
      | typeParamInquiry parameter base => cases base <;> simp [map, contiguityRule]
      | _ => simp [map, contiguityRule]
    | _ => rfl

/-- An expression over other symbols of the same form is as contiguous. -/
theorem contiguous?_map (hf : Symbol.KeepsForm f) (table : IntrinsicTable) (e : Expr Symbol) :
    (e.map f).contiguous? table = e.contiguous? table := by
  rw [contiguous?, contiguous?, isVariable_map hf]
  exact congrArg (fun r => if e.isVariable then r else some true)
    ((contiguity_map hf table).visit_map (.expr e))

/-- **Symbols that answer alike** leave the form of every expression as it is. -/
theorem sameForm_map (hf : Symbol.KeepsForm f) (e : Expr Symbol) : (e.map f).SameForm e where
  rank := e.rank_map hf.rank
  corank := e.corank_map hf.corank
  isVariable := e.isVariable_map hf
  contiguous? table := e.contiguous?_map hf table

end Expr
end FortranExpr
