/-
# What an alias denotes

An alias denotes what the symbol denotes that it is an alias of, through any number of
aliases, and whatever attributes they were given on the way.
-/

import FortranExpr.Symbol

namespace FortranExpr
namespace Symbol

/-- **What is denoted is no alias.** -/
@[simp] theorem ultimate_ultimate (s : Symbol) : s.ultimate.ultimate = s.ultimate := by
  fun_induction ultimate s with
  | case1 _ _ _ _ target ih => exact ih
  | case2 _ _ _ _ target ih => exact ih
  | case3 s huse hhost =>
    rw [ultimate]
    · exact huse
    · exact hhost

/-- The symbol with other attributes on every alias of its chain; the entity denoted keeps its
own. -/
def withAliasAttrs (attrs : Symbol → List Attr) : Symbol → Symbol
  | ⟨serial, name, owner, .use target, own⟩ =>
    ⟨serial, name, owner, .use (target.withAliasAttrs attrs),
      attrs ⟨serial, name, owner, .use target, own⟩⟩
  | ⟨serial, name, owner, .hostAssoc target, own⟩ =>
    ⟨serial, name, owner, .hostAssoc (target.withAliasAttrs attrs),
      attrs ⟨serial, name, owner, .hostAssoc target, own⟩⟩
  | s => s

/-- **Attributes on aliases** do not change what is denoted. -/
@[simp] theorem ultimate_withAliasAttrs (attrs : Symbol → List Attr) (s : Symbol) :
    (s.withAliasAttrs attrs).ultimate = s.ultimate := by
  fun_induction ultimate s with
  | case1 _ _ _ _ target ih => rw [withAliasAttrs, ultimate, ih]
  | case2 _ _ _ _ target ih => rw [withAliasAttrs, ultimate, ih]
  | case3 s huse hhost =>
    rw [withAliasAttrs, ultimate]
    all_goals first | exact huse | exact hhost

end Symbol
end FortranExpr
