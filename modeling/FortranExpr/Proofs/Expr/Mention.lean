/-
# The symbols that an expression mentions

What holds at every position of an item (`Item.Everywhere`) holds of the item and everywhere
in its parts.  An expression mentions the symbols that the items at its positions have of
their own (`Item.symbols`), names that are no parts included:

| item | its symbols |
| --- | --- |
| a name | the symbol |
| a structure constructor | the components that it gives values to |
| an inquiry about a type parameter | the parameter |
| a loop of an array constructor | its index |
| a component, a procedure, a coindexed reference | those of its parts, one of which is the symbol |
-/

import FortranExpr.Proofs.Traversal.Position

namespace FortranExpr

variable {σ : Type}

namespace Item

/-- `p` holds at every position of the item. -/
def Everywhere (p : Item σ → Prop) (i : Item σ) : Prop :=
  ∀ path c, i.at? path = some c → p c

/-- **What holds everywhere** holds of the item itself and everywhere in its parts. -/
theorem everywhere_iff {p : Item σ → Prop} {i : Item σ} :
    i.Everywhere p ↔ p i ∧ ∀ c ∈ i.children, c.Everywhere p := by
  constructor
  · intro h
    refine ⟨h [] i rfl, fun c hc path d hd => ?_⟩
    obtain ⟨k, hk⟩ := List.getElem?_of_mem hc
    exact h (k :: path) d (at?_cons_eq_some_iff.2 ⟨c, hk, hd⟩)
  · rintro ⟨hi, hparts⟩ path d hd
    cases path with
    | nil =>
      obtain rfl := Option.some.inj hd
      exact hi
    | cons k path =>
      obtain ⟨c, hc, hcd⟩ := at?_cons_eq_some_iff.1 hd
      exact hparts c (List.mem_of_getElem? hc) path d hcd

theorem everywhere_absent {p : Item σ → Prop} : (absent : Item σ).Everywhere p ↔ p absent := by
  rw [everywhere_iff]
  exact and_iff_left nofun

/-- The symbols of an item, those of its parts apart. -/
def symbols : Item σ → List σ
  | symbol s | expr (.entity (.symbol s)) => [s]
  | expr (.structureConstructor _ _ components) => components.map ComponentValue.component
  | expr (.typeParamInquiry parameter _) => [parameter]
  | impliedDo loop => [loop.index]
  | _ => []

/-- Every symbol anywhere in an item is one of a list. -/
def Over (known : List σ) (i : Item σ) : Prop := i.Everywhere fun c => ∀ s ∈ c.symbols, s ∈ known

end Item

namespace Expr

/-- A symbol stands somewhere in an expression. -/
def Mentions (e : Expr σ) (s : σ) : Prop :=
  ∃ path i, (Item.expr e).at? path = some i ∧ s ∈ i.symbols

theorem over_iff_mentions {e : Expr σ} {known : List σ} :
    (Item.expr e).Over known ↔ ∀ s, e.Mentions s → s ∈ known :=
  ⟨fun h _ ⟨path, i, hi, hs⟩ => h path i hi _ hs, fun h path i hi s hs => h s ⟨path, i, hi, hs⟩⟩

end Expr
end FortranExpr
