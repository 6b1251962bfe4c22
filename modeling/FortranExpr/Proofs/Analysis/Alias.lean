/-
# Aliases change no answer about form

An alias is asked for its rank, its corank, its contiguity and its function result by way of the
entity that it denotes.  So the form of an expression is the same over aliases, through chains
of any length, as over the entities themselves, and attributes given to an alias leave no trace
in it.

Two expressions are over the same entities if putting the entities in the place of all symbols
makes them one.  `Expr.SameForm` holds of any two such expressions (`sameForm_of_map_ultimate`).
-/

import FortranExpr.Proofs.Analysis.Form
import FortranExpr.Proofs.Expr.Replace
import FortranExpr.Proofs.Symbol

namespace FortranExpr

/-- What denotes the same entity answers the same about form. -/
theorem Symbol.KeepsForm.of_ultimate {f : Symbol → Symbol}
    (hf : ∀ s, (f s).ultimate = s.ultimate) : KeepsForm f where
  rank s := by rw [Symbol.rank, hf, Symbol.rank]
  corank s := by rw [Symbol.corank, hf, Symbol.corank]
  isContiguous s := by rw [Symbol.isContiguous, hf, Symbol.isContiguous]
  result? s table := by
    simp only [Procedure.result?, Procedure.characteristics?, hf]

/-- An alias has the form of the entity it denotes. -/
theorem Symbol.keepsForm_ultimate : KeepsForm ultimate := .of_ultimate ultimate_ultimate

/-- The attributes of an alias itself do not count. -/
theorem Symbol.keepsForm_withAliasAttrs (attrs : Symbol → List Attr) :
    KeepsForm (withAliasAttrs attrs) := .of_ultimate (ultimate_withAliasAttrs attrs)

namespace Expr

/-- **Expressions over the same entities** have the same form, whatever aliases stand where. -/
theorem sameForm_of_map_ultimate {x y : Expr Symbol}
    (h : x.map Symbol.ultimate = y.map Symbol.ultimate) : x.SameForm y :=
  (h ▸ x.sameForm_map Symbol.keepsForm_ultimate).symm.trans
    (y.sameForm_map Symbol.keepsForm_ultimate)

end Expr

namespace Subscript

/-- Subscripts that denote the same entities are as contiguous. -/
theorem contiguousRank?_of_map_ultimate {l l' : List (Subscript Symbol)}
    (h : (l.map fun s => s.map Symbol.ultimate) = l'.map fun s => s.map Symbol.ultimate) :
    contiguousRank? l = contiguousRank? l' := by
  rw [← contiguousRank?_map Symbol.keepsForm_ultimate.rank l, h,
    contiguousRank?_map Symbol.keepsForm_ultimate.rank]

end Subscript

/-- **Aliases change no answer about form.**  An expression has the rank, the corank and the
contiguity that it has over the entities denoted, and is a variable or none as it is over them;
the same subscripts allow a section to be contiguous.  None of this depends on the attributes of
aliases. -/
theorem Expr.sameForm_replace_ultimate (e : Expr Symbol) :
    (e.replace Symbol.ultimate).SameForm e ∧
    (∀ subscripts : List (Subscript Symbol),
      Subscript.contiguousRank? (subscripts.map fun s => s.replace Symbol.ultimate) =
        Subscript.contiguousRank? subscripts) ∧
    ∀ attrs : Symbol → List Attr,
      (e.map (Symbol.withAliasAttrs attrs)).SameForm e ∧
      ∀ subscripts : List (Subscript Symbol),
        Subscript.contiguousRank? (subscripts.map fun s => s.map (Symbol.withAliasAttrs attrs)) =
          Subscript.contiguousRank? subscripts := by
  refine ⟨sameForm_of_map_ultimate (e.map_replace Symbol.ultimate_ultimate),
    fun subscripts => Subscript.contiguousRank?_of_map_ultimate ?_, fun attrs =>
      ⟨e.sameForm_map (Symbol.keepsForm_withAliasAttrs attrs),
        Subscript.contiguousRank?_map (Symbol.keepsForm_withAliasAttrs attrs).rank⟩⟩
  rw [List.map_map]
  exact List.map_congr_left fun s _ => s.map_replace Symbol.ultimate_ultimate

end FortranExpr
