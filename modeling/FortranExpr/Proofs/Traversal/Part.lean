/-
# The parts of an item, position by position

`Item.Part` names every position at which a form of expression holds a part, one
constructor for each position.  An empty slot holds no part, and neither the index of a
loop, nor the components that a structure constructor names, nor the parameter of an
inquiry stands at such a position.

`part_iff` is the audit of `Item.children`: the list a walk goes through holds exactly
these parts, and beside them only the places where nothing stands.
-/

import FortranExpr.Traversal.Item

namespace FortranExpr

variable {σ : Type}

namespace Item

/-- `Part i c`: the item `c` stands at one of the positions for parts of the item `i`. -/
inductive Part : Item σ → Item σ → Prop
  | componentBase {base c} : Part (.expr (.entity (.component base c))) (.expr base)
  | componentName {base c} : Part (.expr (.entity (.component base c))) (.symbol c)
  | procedure {s} : Part (.expr (.designator (.user s))) (.symbol s)
  | callee {proc args rank} : Part (.expr (.call proc args rank)) (.expr (.designator proc))
  | argument {proc args rank e} : Slot.filled e ∈ args →
      Part (.expr (.call proc args rank)) (.expr e)
  | operand {op category e} : Part (.expr (.unary op category e)) (.expr e)
  | left {op category l r} : Part (.expr (.binary op category l r)) (.expr l)
  | right {op category l r} : Part (.expr (.binary op category l r)) (.expr r)
  | inner {e} : Part (.expr (.parens e)) (.expr e)
  | comparedLeft {op l r} : Part (.expr (.relational op l r)) (.expr l)
  | comparedRight {op l r} : Part (.expr (.relational op l r)) (.expr r)
  | array {base subscripts} :
      Part (.expr (.arrayRef base subscripts)) (.expr (.entity base))
  | arraySubscript {base subscripts s} : s ∈ subscripts →
      Part (.expr (.arrayRef base subscripts)) (.subscript s)
  | coarray {s subscripts cosubscripts stat team} :
      Part (.expr (.coindexed s subscripts cosubscripts stat team)) (.symbol s)
  | coarraySubscript {s subscripts cosubscripts stat team i} : i ∈ subscripts →
      Part (.expr (.coindexed s subscripts cosubscripts stat team)) (.subscript i)
  | cosubscript {s subscripts cosubscripts stat team e} : e ∈ cosubscripts →
      Part (.expr (.coindexed s subscripts cosubscripts stat team)) (.expr e)
  | stat {s subscripts cosubscripts e team} :
      Part (.expr (.coindexed s subscripts cosubscripts (.filled e) team)) (.expr e)
  | team {s subscripts cosubscripts stat e} :
      Part (.expr (.coindexed s subscripts cosubscripts stat (.filled e))) (.expr e)
  | parent {e lower upper} : Part (.expr (.substring e lower upper)) (.expr e)
  | firstCharacter {parent e upper} :
      Part (.expr (.substring parent (.filled e) upper)) (.expr e)
  | lastCharacter {parent lower e} :
      Part (.expr (.substring parent lower (.filled e))) (.expr e)
  | complex {e part} : Part (.expr (.complexPart e part)) (.expr e)
  | arrayValue {category values e} : ArrayItem.expr e ∈ values →
      Part (.expr (.arrayConstructor category values)) (.expr e)
  | arrayLoop {category values loop} : ArrayItem.impliedDo loop ∈ values →
      Part (.expr (.arrayConstructor category values)) (.impliedDo loop)
  | parameter {type parameters components p} : p ∈ parameters →
      Part (.expr (.structureConstructor type parameters components)) (.param p.value)
  | componentValue {type parameters components c} : c ∈ components →
      Part (.expr (.structureConstructor type parameters components)) (.expr c.value)
  | inquiredObject {parameter base} :
      Part (.expr (.typeParamInquiry parameter (some base))) (.expr (.entity base))
  | describedObject {base field dimension} :
      Part (.expr (.descriptorInquiry base field dimension)) (.expr (.entity base))
  | element {e} : Part (.subscript (.element e)) (.expr e)
  | triplet {t} : Part (.subscript (.triplet t)) (.triplet t)
  | lower {e upper stride} : Part (.triplet ⟨.filled e, upper, stride⟩) (.expr e)
  | upper {lower e stride} : Part (.triplet ⟨lower, .filled e, stride⟩) (.expr e)
  | stride {lower upper e} : Part (.triplet ⟨lower, upper, .filled e⟩) (.expr e)
  | loopLower {index lower upper stride values} :
      Part (.impliedDo ⟨index, lower, upper, stride, values⟩) (.expr lower)
  | loopUpper {index lower upper stride values} :
      Part (.impliedDo ⟨index, lower, upper, stride, values⟩) (.expr upper)
  | loopStride {index lower upper e values} :
      Part (.impliedDo ⟨index, lower, upper, .filled e, values⟩) (.expr e)
  | loopValue {index lower upper stride values e} : ArrayItem.expr e ∈ values →
      Part (.impliedDo ⟨index, lower, upper, stride, values⟩) (.expr e)
  | innerLoop {index lower upper stride values loop} : ArrayItem.impliedDo loop ∈ values →
      Part (.impliedDo ⟨index, lower, upper, stride, values⟩) (.impliedDo loop)
  | parameterValue {e} : Part (.param (.explicit e)) (.expr e)

/-- A part is among the items that a walk goes through. -/
theorem Part.mem_children {i c : Item σ} (h : Part i c) : c ∈ i.children := by
  cases h with
  | argument h => exact List.mem_cons_of_mem _ (List.mem_map_of_mem (f := Slot.item) h)
  | arraySubscript h => exact List.mem_cons_of_mem _ (List.mem_map_of_mem h)
  | coarraySubscript h =>
    exact List.mem_cons_of_mem _
      (List.mem_append_left _ (List.mem_append_left _ (List.mem_map_of_mem h)))
  | cosubscript h =>
    exact List.mem_cons_of_mem _
      (List.mem_append_left _ (List.mem_append_right _ (List.mem_map_of_mem h)))
  | stat | team => simp [children, Expr.children, Slot.item]
  | arrayValue h | arrayLoop h => exact List.mem_map_of_mem (f := ArrayItem.item) h
  | parameter h =>
    exact List.mem_append_left _ (List.mem_map_of_mem (f := fun p => Item.param p.value) h)
  | componentValue h =>
    exact List.mem_append_right _ (List.mem_map_of_mem (f := fun c => Item.expr c.value) h)
  | loopValue h | innerLoop h =>
    have hmem := List.mem_map_of_mem (f := ArrayItem.item) h
    exact List.mem_cons_of_mem _ (List.mem_cons_of_mem _ (List.mem_cons_of_mem _ hmem))
  | _ => simp [children, Expr.children, Slot.item, Procedure.item]

/-- Something stands at the position of a part. -/
theorem Part.ne_absent {i c : Item σ} (h : Part i c) : c ≠ .absent := by
  cases h <;> simp

/-- A slot where something stands holds an expression. -/
theorem exists_filled_of_slot_item_ne {s : Slot σ} (h : s.item ≠ .absent) :
    ∃ e, s = .filled e := by
  cases s with
  | empty => exact absurd rfl h
  | filled e => exact ⟨e, rfl⟩

/-- What a walk goes through in an expression, places where nothing stands apart, are its
parts. -/
theorem part_of_mem_exprChildren {e : Expr σ} {c : Item σ} (h : c ∈ e.children)
    (hc : c ≠ .absent) : Part (.expr e) c := by
  cases e with
  | entity ref =>
    cases ref with
    | symbol s => simp [Expr.children] at h
    | component base s =>
      simp only [Expr.children, List.mem_cons, List.not_mem_nil, or_false] at h
      rcases h with rfl | rfl
      · exact .componentBase
      · exact .componentName
  | constant | boz | nullPointer | staticData => simp [Expr.children] at h
  | designator proc =>
    rw [Expr.children, List.mem_singleton] at h
    subst h
    cases proc with
    | user s => exact .procedure
    | intrinsic name => exact absurd rfl hc
  | call proc args rank =>
    simp only [Expr.children, List.mem_cons, List.mem_map] at h
    rcases h with rfl | ⟨a, ha, rfl⟩
    · exact .callee
    · obtain ⟨e, rfl⟩ := exists_filled_of_slot_item_ne hc
      exact .argument ha
  | unary op category operand =>
    rw [Expr.children, List.mem_singleton] at h
    exact h ▸ .operand
  | parens operand =>
    rw [Expr.children, List.mem_singleton] at h
    exact h ▸ .inner
  | complexPart operand part =>
    rw [Expr.children, List.mem_singleton] at h
    exact h ▸ .complex
  | binary op category left right =>
    simp only [Expr.children, List.mem_cons, List.not_mem_nil, or_false] at h
    rcases h with rfl | rfl
    · exact .left
    · exact .right
  | relational op left right =>
    simp only [Expr.children, List.mem_cons, List.not_mem_nil, or_false] at h
    rcases h with rfl | rfl
    · exact .comparedLeft
    · exact .comparedRight
  | arrayRef base subscripts =>
    simp only [Expr.children, List.mem_cons, List.mem_map] at h
    rcases h with rfl | ⟨s, hs, rfl⟩
    · exact .array
    · exact .arraySubscript hs
  | coindexed base subscripts cosubscripts stat team =>
    simp only [Expr.children, List.mem_cons, List.mem_append, List.mem_map, List.not_mem_nil,
      or_false] at h
    rcases h with rfl | ((⟨s, hs, rfl⟩ | ⟨e, he, rfl⟩) | rfl | rfl)
    · exact .coarray
    · exact .coarraySubscript hs
    · exact .cosubscript he
    · obtain ⟨e, rfl⟩ := exists_filled_of_slot_item_ne hc
      exact .stat
    · obtain ⟨e, rfl⟩ := exists_filled_of_slot_item_ne hc
      exact .team
  | substring parent lower upper =>
    simp only [Expr.children, List.mem_cons, List.not_mem_nil, or_false] at h
    rcases h with rfl | rfl | rfl
    · exact .parent
    · obtain ⟨e, rfl⟩ := exists_filled_of_slot_item_ne hc
      exact .firstCharacter
    · obtain ⟨e, rfl⟩ := exists_filled_of_slot_item_ne hc
      exact .lastCharacter
  | arrayConstructor category values =>
    simp only [Expr.children, List.mem_map] at h
    obtain ⟨a, ha, rfl⟩ := h
    cases a with
    | expr e => exact .arrayValue ha
    | impliedDo loop => exact .arrayLoop ha
  | structureConstructor type parameters components =>
    simp only [Expr.children, List.mem_append, List.mem_map] at h
    rcases h with ⟨p, hp, rfl⟩ | ⟨v, hv, rfl⟩
    · exact .parameter hp
    · exact .componentValue hv
  | typeParamInquiry parameter base =>
    cases base with
    | none =>
      rw [Expr.children, List.mem_singleton] at h
      exact absurd h hc
    | some base =>
      rw [Expr.children, List.mem_singleton] at h
      exact h ▸ .inquiredObject
  | descriptorInquiry base field dimension =>
    rw [Expr.children, List.mem_singleton] at h
    exact h ▸ .describedObject

/-- What a walk goes through in an item, places where nothing stands apart, are its
parts. -/
theorem part_of_mem_children {i c : Item σ} (h : c ∈ i.children) (hc : c ≠ .absent) :
    Part i c := by
  cases i with
  | absent | symbol => simp [children] at h
  | expr e => exact part_of_mem_exprChildren h hc
  | subscript s =>
    cases s with
    | element e =>
      rw [children, List.mem_singleton] at h
      exact h ▸ .element
    | triplet t =>
      rw [children, List.mem_singleton] at h
      exact h ▸ .triplet
  | triplet t =>
    obtain ⟨lower, upper, stride⟩ := t
    simp only [children, List.mem_cons, List.not_mem_nil, or_false] at h
    rcases h with rfl | rfl | rfl
    · obtain ⟨e, rfl⟩ := exists_filled_of_slot_item_ne hc
      exact .lower
    · obtain ⟨e, rfl⟩ := exists_filled_of_slot_item_ne hc
      exact .upper
    · obtain ⟨e, rfl⟩ := exists_filled_of_slot_item_ne hc
      exact .stride
  | impliedDo loop =>
    obtain ⟨index, lower, upper, stride, values⟩ := loop
    simp only [children, List.mem_cons, List.mem_map] at h
    rcases h with rfl | rfl | rfl | ⟨a, ha, rfl⟩
    · exact .loopLower
    · exact .loopUpper
    · obtain ⟨e, rfl⟩ := exists_filled_of_slot_item_ne hc
      exact .loopStride
    · cases a with
      | expr e => exact .loopValue ha
      | impliedDo loop => exact .innerLoop ha
  | param v =>
    cases v with
    | explicit e =>
      rw [children, List.mem_singleton] at h
      exact h ▸ .parameterValue
    | assumed | deferred =>
      rw [children, List.mem_singleton] at h
      exact absurd h hc

/-- **A walk goes through the parts of an item and nothing else**, places where nothing
stands apart. -/
theorem part_iff {i c : Item σ} : Part i c ↔ c ∈ i.children ∧ c ≠ .absent :=
  ⟨fun h => ⟨h.mem_children, h.ne_absent⟩, fun h => part_of_mem_children h.1 h.2⟩

end Item
end FortranExpr
