/-
# The shape of an initial data target

The verdict on an initial data target is about its shape, and the faults of its object are
reported beside it.  So the verdict must not tell what is declared of storage.

| of a declaration | the verdict may depend on it |
| --- | --- |
| name, owner, the entity that it is an alias of | yes |
| the kind of entity, the kind of type parameter | yes |
| the rank of an object, PARAMETER | yes |
| every other attribute, the characteristics of a procedure | no |
| corank, shape, dummy argument, COMMON block, initial value | no |

`Symbol.Redeclared` relates two declarations that may differ in the last two rows, all along
a chain of aliases.  The verdict asks three things of a symbol (`Symbol.KeepsShape`), and
declarations so related answer them alike.
-/

import FortranExpr.Proofs.Analysis.Constancy
import FortranExpr.Proofs.Analysis.TargetMessages
import FortranExpr.Proofs.Expr.Map

namespace FortranExpr

/-- The image of a symbol answers what the shape of a target asks as the symbol does. -/
structure Symbol.KeepsShape (f : Symbol → Symbol) : Prop where
  rank : ∀ s, (f s).rank = s.rank
  isConstant : ∀ s, (f s).isConstant = s.isConstant
  isKindParameter : ∀ s, (f s).isKindParameter = s.isKindParameter

variable {f : Symbol → Symbol}

/-! ### Constancy -/

namespace Expr

/-- A literal mentions no symbol. -/
theorem isNonzeroLiteral_map {σ τ : Type} (f : σ → τ) (e : Expr σ) :
    (e.map f).isNonzeroLiteral = e.isNonzeroLiteral := by
  rw [isNonzeroLiteral, scalarValue?_map, isNonzeroLiteral]

/-- The pass for constancy takes the same steps under symbols of the same shape. -/
theorem constancy_map (hf : Symbol.KeepsShape f) : constancy.AgreesAlong f constancy where
  start := rfl
  combine := rfl
  decided := rfl
  symbol := hf.isConstant
  onVisit _ _ := rfl
  rule i := by
    show constancyRule (i.map _) = constancyRule i
    cases i with
    | expr e =>
      cases e with
      | call proc args rank =>
        cases proc <;> simp [map, Procedure.map, constancyRule, Procedure.isIntrinsic]
      | binary op category left right =>
        rw [Item.map_expr, map, constancyRule_binary, constancyRule_binary, isNonzeroLiteral_map]
      | typeParamInquiry parameter base =>
        cases base <;> simp [map, constancyRule, hf.isKindParameter]
      | _ => simp [map, constancyRule]
    | param v => cases v <;> simp [ParamValue.map, constancyRule]
    | _ => rfl

/-- **Symbols that answer alike** leave an expression constant or not, as it is. -/
theorem isConstant_map (hf : Symbol.KeepsShape f) (e : Expr Symbol) :
    (e.map f).isConstant = e.isConstant :=
  (constancy_map hf).visit_map (.expr e)

end Expr

/-- What stands in a slot is as constant. -/
theorem Slot.isConstant_map (hf : Symbol.KeepsShape f) (s : Slot Symbol) :
    (s.map f).isConstant = s.isConstant := by
  cases s with
  | empty => rw [Slot.map]
  | filled e =>
    rw [Slot.map]
    exact e.isConstant_map hf

/-- A subscript is as static. -/
theorem Subscript.isStatic_map (hf : Symbol.KeepsShape f) (s : Subscript Symbol) :
    (s.map f).isStatic = s.isStatic := by
  cases s with
  | element e =>
    simp only [Subscript.map, Subscript.isStatic, e.rank_map hf.rank, e.isConstant_map hf]
  | triplet t =>
    obtain ⟨lower, upper, stride⟩ := t
    simp only [Subscript.map, Triplet.map, Subscript.isStatic, Slot.isConstant_map hf]

/-! ### The verdict -/

mutual

/-- **Symbols that answer alike** leave the verdict on a target as it is. -/
theorem Expr.accepted_map (hf : Symbol.KeepsShape f) :
    ∀ e : Expr Symbol, (e.map f).targetVerdict.accepted = e.targetVerdict.accepted
  | .entity ref => by
    rw [Expr.map]
    exact ref.accepted_map hf
  | .nullPointer => by rw [Expr.map]
  | .designator (.user s) => by
    rw [Expr.map, Procedure.map, Expr.targetVerdict_procedure, Expr.targetVerdict_procedure]
  | .designator (.intrinsic name) => by rw [Expr.map, Procedure.map]
  | .arrayRef base subscripts => by
    have hsubscripts : (subscripts.map fun s => s.map f).all Subscript.isStatic =
        subscripts.all Subscript.isStatic := by
      rw [List.all_map]
      exact congrArg (subscripts.all ·) (funext fun s => s.isStatic_map hf)
    rw [Expr.map, Expr.targetVerdict_arrayRef, Expr.targetVerdict_arrayRef, hsubscripts]
    exact congrArg (· && _) (base.accepted_map hf)
  | .substring parent lower upper => by
    rw [Expr.map, Expr.targetVerdict_substring, Expr.targetVerdict_substring,
      lower.isConstant_map hf, upper.isConstant_map hf]
    split
    · exact parent.accepted_map hf
    · rfl
  | .complexPart complex part => by
    rw [Expr.map, Expr.targetVerdict_complexPart, Expr.targetVerdict_complexPart]
    exact complex.accepted_map hf
  | .parens operand => by
    rw [Expr.map, Expr.targetVerdict_parens, Expr.targetVerdict_parens]
    exact operand.accepted_map hf
  | .typeParamInquiry _ none | .typeParamInquiry _ (some _) => by
    rw [Expr.map, Expr.targetVerdict_of_rejected rfl, Expr.targetVerdict_of_rejected rfl]
  | .constant _ | .boz _ | .staticData _ _ => by rw [Expr.map]
  | .call _ _ _ | .unary _ _ _ | .binary _ _ _ _ | .relational _ _ _ | .coindexed _ _ _ _ _
  | .arrayConstructor _ _ | .structureConstructor _ _ _ | .descriptorInquiry _ _ _ => by
    rw [Expr.map, Expr.targetVerdict_of_rejected rfl, Expr.targetVerdict_of_rejected rfl]

/-- So it is for a name or a component. -/
theorem DataRef.accepted_map (hf : Symbol.KeepsShape f) :
    ∀ ref : DataRef Symbol, (Expr.entity (ref.map f)).targetVerdict.accepted =
      (Expr.entity ref).targetVerdict.accepted
  | .symbol s => by rw [DataRef.map, Expr.targetVerdict_symbol, Expr.targetVerdict_symbol]
  | .component base c => by
    rw [DataRef.map, Expr.targetVerdict_component, Expr.targetVerdict_component]
    exact base.accepted_map hf

end

/-! ### Declarations that differ in storage -/

/-- `s.Redeclared t`: the symbols differ at most in what is declared of storage.  What stands
under one name on both sides is kept. -/
inductive Symbol.Redeclared : Symbol → Symbol → Prop
  | use {serial serial' name owner target target' attrs attrs'} :
      (.parameter ∈ attrs ↔ .parameter ∈ attrs') → Redeclared target target' →
      Redeclared ⟨serial, name, owner, .use target, attrs⟩
        ⟨serial', name, owner, .use target', attrs'⟩
  | hostAssoc {serial serial' name owner target target' attrs attrs'} :
      (.parameter ∈ attrs ↔ .parameter ∈ attrs') → Redeclared target target' →
      Redeclared ⟨serial, name, owner, .hostAssoc target, attrs⟩
        ⟨serial', name, owner, .hostAssoc target', attrs'⟩
  | object {serial serial' name owner rank corank corank' shape shape' isDummy isDummy'
      commonBlock commonBlock' init init' attrs attrs'} :
      (.parameter ∈ attrs ↔ .parameter ∈ attrs') →
      Redeclared
        ⟨serial, name, owner, .object ⟨rank, corank, shape, isDummy, commonBlock, init⟩, attrs⟩
        ⟨serial', name, owner,
          .object ⟨rank, corank', shape', isDummy', commonBlock', init'⟩, attrs'⟩
  | procedure {serial serial' name owner isDummy isDummy' characteristics characteristics'
      attrs attrs'} :
      (.parameter ∈ attrs ↔ .parameter ∈ attrs') →
      Redeclared ⟨serial, name, owner, .procedure isDummy characteristics, attrs⟩
        ⟨serial', name, owner, .procedure isDummy' characteristics', attrs'⟩
  | typeParam {serial serial' name owner attr attrs attrs'} :
      (.parameter ∈ attrs ↔ .parameter ∈ attrs') →
      Redeclared ⟨serial, name, owner, .typeParam attr, attrs⟩
        ⟨serial', name, owner, .typeParam attr, attrs'⟩
  | derivedType {serial serial' name owner attrs attrs'} :
      (.parameter ∈ attrs ↔ .parameter ∈ attrs') →
      Redeclared ⟨serial, name, owner, .derivedType, attrs⟩
        ⟨serial', name, owner, .derivedType, attrs'⟩

namespace Symbol.Redeclared

variable {s t : Symbol}

/-- The scope stays. -/
theorem owner (h : s.Redeclared t) : s.owner = t.owner := by
  cases h <;> rfl

/-- A named constant stays one. -/
theorem has_parameter (h : s.Redeclared t) : s.has .parameter = t.has .parameter := by
  rw [Bool.eq_iff_iff, has, has, List.contains_iff_mem, List.contains_iff_mem]
  cases h <;> assumption

/-- A data object stays one. -/
theorem isObject (h : s.Redeclared t) :
    s.details.object?.isSome = t.details.object?.isSome := by
  cases h <;> rfl

/-- **What redeclared symbols denote** is redeclared. -/
theorem ultimate (h : s.Redeclared t) : s.ultimate.Redeclared t.ultimate := by
  induction h with
  | use _ _ ih | hostAssoc _ _ ih =>
    rw [Symbol.ultimate, Symbol.ultimate]
    exact ih
  | object hp => exact .object hp
  | procedure hp => exact .procedure hp
  | typeParam hp => exact .typeParam hp
  | derivedType hp => exact .derivedType hp

/-- The rank stays, also that of an alias. -/
theorem rank (h : s.Redeclared t) : s.rank = t.rank := by
  have hu := h.ultimate
  rw [Symbol.rank, Symbol.rank]
  generalize s.ultimate = u at hu
  generalize t.ultimate = v at hu
  cases hu <;> rfl

/-- A kind type parameter stays one. -/
theorem isKindParameter (h : s.Redeclared t) : s.isKindParameter = t.isKindParameter := by
  have hu := h.ultimate
  rw [Symbol.isKindParameter, Symbol.isKindParameter]
  generalize s.ultimate = u at hu
  generalize t.ultimate = v at hu
  cases hu <;> rfl

/-- So a name stays as constant as it was. -/
theorem isConstant (h : s.Redeclared t) : s.isConstant = t.isConstant := by
  rw [Symbol.isConstant, Symbol.isConstant, isNamedConstant, isNamedConstant,
    isImpliedDoIndex, isImpliedDoIndex, h.ultimate.isObject, h.ultimate.has_parameter, h.owner]

end Symbol.Redeclared

/-- Declaring entities otherwise keeps what the shape of a target depends on. -/
theorem Symbol.KeepsShape.of_redeclared (h : ∀ s : Symbol, s.Redeclared (f s)) : KeepsShape f where
  rank s := (h s).rank.symm
  isConstant s := (h s).isConstant.symm
  isKindParameter s := (h s).isKindParameter.symm

/-- **The verdict on a target tells nothing of storage.**  Whatever is changed in the
declarations of its symbols and of the entities they denote, if it is no more than attributes
other than PARAMETER, coranks, shapes, dummy arguments, COMMON blocks and initial values, the
expression is accepted as an initial data target if and only if it was. -/
theorem Expr.accepted_of_redeclared (h : ∀ s : Symbol, s.Redeclared (f s)) (e : Expr Symbol) :
    (e.map f).targetVerdict.accepted = e.targetVerdict.accepted :=
  e.accepted_map (.of_redeclared h)

namespace Symbol

/-- The symbol with nothing declared of storage but that it is a named constant or none. -/
def bare : Symbol → Symbol
  | ⟨serial, name, owner, .use target, attrs⟩ =>
    ⟨serial, name, owner, .use target.bare, attrs.filter (· = .parameter)⟩
  | ⟨serial, name, owner, .hostAssoc target, attrs⟩ =>
    ⟨serial, name, owner, .hostAssoc target.bare, attrs.filter (· = .parameter)⟩
  | ⟨serial, name, owner, .object declared, attrs⟩ =>
    ⟨serial, name, owner, .object ⟨declared.rank, 0, .explicit, false, none, none⟩,
      attrs.filter (· = .parameter)⟩
  | ⟨serial, name, owner, details, attrs⟩ =>
    ⟨serial, name, owner, details, attrs.filter (· = .parameter)⟩

/-- A symbol without any other attributes is a declaration of the same. -/
theorem redeclared_bare (s : Symbol) : s.Redeclared s.bare := by
  have hp (attrs : List Attr) : .parameter ∈ attrs ↔ .parameter ∈ attrs.filter (· = .parameter) := by
    simp
  fun_induction bare s with
  | case1 serial name owner target attrs ih => exact .use (hp attrs) ih
  | case2 serial name owner target attrs ih => exact .hostAssoc (hp attrs) ih
  | case3 serial name owner declared attrs => exact .object (hp attrs)
  | case4 serial name owner details attrs huse hhost hobject =>
    cases details with
    | use target => exact absurd rfl (huse target)
    | hostAssoc target => exact absurd rfl (hhost target)
    | object declared => exact absurd rfl (hobject declared)
    | procedure isDummy characteristics => exact .procedure (hp attrs)
    | typeParam attr => exact .typeParam (hp attrs)
    | derivedType => exact .derivedType (hp attrs)

end Symbol

/-- The section `x%c(n:)` in a subprogram: an ALLOCATABLE component of the module variable `x`,
which has TARGET, from a named constant on. -/
def componentSection : Expr Symbol :=
  let m : Scope := .child .global 0 .module "m"
  let x : Symbol := ⟨0, "x", m, .object ⟨0, 0, .explicit, false, none, none⟩, [.target]⟩
  let n : Symbol := ⟨1, "n", m, .object ⟨0, 0, .explicit, false, none, none⟩, [.parameter]⟩
  let c : Symbol := ⟨2, "c", .child m 1 .derivedType "t",
    .object ⟨1, 0, .deferredShape, false, none, none⟩, [.allocatable]⟩
  let hosted (serial : Nat) (s : Symbol) : Symbol :=
    ⟨serial, s.name, .child m 2 .subprogram "f", .hostAssoc s, []⟩
  .arrayRef (.component (.entity (.symbol (hosted 3 x))) c)
    [.triplet ⟨.filled (.entity (.symbol (hosted 4 n))), .empty, .empty⟩]

/-- Without what is declared of storage, other faults are found in `x%c(n:)`, and it is accepted
as before. -/
theorem Expr.accepted_bare_componentSection :
    (∀ s : Symbol, s.Redeclared s.bare) ∧
      (componentSection.map Symbol.bare).targetVerdict.accepted =
        componentSection.targetVerdict.accepted ∧
      componentSection.targetVerdict = ⟨true, [⟨.allocatable, "c"⟩]⟩ ∧
      (componentSection.map Symbol.bare).targetVerdict.findings = [⟨.lacksTarget, "x"⟩] :=
  ⟨Symbol.redeclared_bare, accepted_of_redeclared Symbol.redeclared_bare componentSection,
    by decide +kernel, by decide +kernel⟩

end FortranExpr
