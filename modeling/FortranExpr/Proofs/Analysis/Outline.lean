/-
# What the answers depend on

The report of a check depends on little of what is known of a symbol.  The outline of a symbol
keeps that, and the names of scopes may be other ones in it, as long as different scopes keep
different names.

| of a symbol | in its outline |
| --- | --- |
| name, attributes, what it denotes | the same |
| an initial value | that there is one |
| the entity that it is an alias of | the outline of that |
| the scope that owns it | the same, with other names |
| the place among all declarations | left out |

So a check whose expression is over outlines has the report that it has over the symbols
themselves (`Check.run_outline`).
-/

import FortranExpr.Proofs.Analysis.Constancy
import FortranExpr.Proofs.Analysis.Form
import FortranExpr.Proofs.Analysis.TargetShape
import FortranExpr.Proofs.Symbol
import FortranExpr.Report
import Mathlib.Logic.Function.Basic

namespace FortranExpr

/-! ### Scopes under other names -/

namespace Scope

variable (h : String → String)

/-- A scope under another name, like all scopes around it. -/
def rename : Scope → Scope
  | global => global
  | child parent serial kind name => child parent.rename serial kind (h name)

/-- Other names leave the kind of a scope as it is. -/
@[simp] theorem kind_rename (s : Scope) : (s.rename h).kind = s.kind := by
  cases s <;> rfl

/-- Under the same names a scope is the same. -/
theorem rename_id (s : Scope) : s.rename id = s := by
  induction s with
  | global => rfl
  | child parent serial kind name ih => rw [rename, ih, id]

variable {h}

/-- Different scopes stay different, as long as different names do. -/
theorem rename_injective (hh : h.Injective) : (rename h).Injective := by
  intro s
  induction s with
  | global => rintro (_ | _) heq <;> first | rfl | cases heq
  | child parent serial kind name ih =>
    rintro (_ | ⟨parent', serial', kind', name'⟩) heq
    · cases heq
    · obtain ⟨hparent, rfl, rfl, hname⟩ := child.inj heq
      rw [ih hparent, hh hname]

/-- **Other names for different scopes** leave the scopes around a scope where they are. -/
theorem hasAncestor_rename (hh : h.Injective) (s other : Scope) :
    (s.rename h).hasAncestor (other.rename h) = s.hasAncestor other := by
  induction s with
  | global => rfl
  | child parent serial kind name ih =>
    simp only [rename, hasAncestor, ih, (rename_injective hh).eq_iff]

end Scope

/-! ### Outlines of symbols -/

/-- What a symbol denotes, where an initial value is only known to be there. -/
def Details.outline {σ τ : Type} (f : σ → τ) : Details σ → Details τ
  | object ⟨rank, corank, shape, isDummy, commonBlock, init⟩ =>
    object ⟨rank, corank, shape, isDummy, commonBlock, init.map fun _ => .nullPointer⟩
  | procedure isDummy characteristics => procedure isDummy characteristics
  | use target => use (f target)
  | hostAssoc target => hostAssoc (f target)
  | typeParam attr => typeParam attr
  | derivedType => derivedType

namespace Details

variable {σ τ : Type} (f : σ → τ) (d : Details σ)

/-- The details of a dummy argument are those of one in outline. -/
@[simp] theorem isDummy_outline : (d.outline f).isDummy = d.isDummy := by
  cases d <;> rfl

/-- An alias is one in outline, of whatever entity. -/
@[simp] theorem isAlias_outline : (d.outline f).isAlias = d.isAlias := by
  cases d <;> rfl

/-- The outline keeps the COMMON block of a data object. -/
@[simp] theorem isInCommon_outline : (d.outline f).isInCommon = d.isInCommon := by
  cases d <;> rfl

/-- A data object is one in outline, with an initial value or without. -/
@[simp] theorem isSome_object?_outline : (d.outline f).object?.isSome = d.object?.isSome := by
  cases d <;> rfl

end Details

namespace Symbol

variable (h : String → String)

/-- The outline of a symbol. -/
def outline : Symbol → Symbol
  | ⟨_, name, owner, .use target, attrs⟩ =>
    ⟨0, name, owner.rename h, .use target.outline, attrs⟩
  | ⟨_, name, owner, .hostAssoc target, attrs⟩ =>
    ⟨0, name, owner.rename h, .hostAssoc target.outline, attrs⟩
  | ⟨_, name, owner, details, attrs⟩ =>
    ⟨0, name, owner.rename h, details.outline id, attrs⟩

/-- The outline of a symbol in one equation, whatever it denotes. -/
theorem outline_eq (s : Symbol) :
    s.outline h = ⟨0, s.name, s.owner.rename h, s.details.outline (outline h), s.attrs⟩ := by
  obtain ⟨serial, name, owner, details, attrs⟩ := s
  cases details <;> simp [outline, Details.outline]

variable (s : Symbol)

/-- The name is in the outline. -/
@[simp] theorem outline_name : (s.outline h).name = s.name := by rw [outline_eq]

/-- The owner is in the outline, under its other name. -/
@[simp] theorem outline_owner : (s.outline h).owner = s.owner.rename h := by rw [outline_eq]

/-- What a symbol denotes is in the outline, over outlines. -/
@[simp] theorem outline_details : (s.outline h).details = s.details.outline (outline h) := by
  rw [outline_eq]

/-- The attributes are in the outline, those of an alias apart from those of its entity. -/
@[simp] theorem has_outline (a : Attr) : (s.outline h).has a = s.has a := by
  rw [outline_eq, has, has]

/-- A dummy argument is one in outline, alias or not. -/
@[simp] theorem isDummy_outline : (s.outline h).isDummy = s.isDummy := by
  rw [isDummy, outline_details, Details.isDummy_outline, isDummy]

/-- **An outline denotes** the outline of what the symbol denotes. -/
@[simp] theorem ultimate_outline : (s.outline h).ultimate = s.ultimate.outline h := by
  fun_induction ultimate s with
  | case1 serial name owner attrs target ih => rw [outline, ultimate, ih]
  | case2 serial name owner attrs target ih => rw [outline, ultimate, ih]
  | case3 s huse hhost =>
    obtain ⟨serial, name, owner, details, attrs⟩ := s
    cases details with
    | use target => exact absurd rfl (huse _ _ _ target _)
    | hostAssoc target => exact absurd rfl (hhost _ _ _ target _)
    | _ => simp [outline, ultimate, Details.outline]

/-- The rank of the entity that a symbol denotes is in the outline. -/
@[simp] theorem rank_outline : (s.outline h).rank = s.rank := by
  rw [rank, rank, ultimate_outline, outline_details]
  cases s.ultimate.details <;> rfl

/-- The corank is in the outline, also that of an alias. -/
@[simp] theorem corank_outline : (s.outline h).corank = s.corank := by
  rw [corank, corank, ultimate_outline, outline_details]
  cases s.ultimate.details <;> rfl

/-- The outline tells a type parameter that is known when the program is compiled. -/
@[simp] theorem isKindParameter_outline : (s.outline h).isKindParameter = s.isKindParameter := by
  rw [isKindParameter, isKindParameter, ultimate_outline, outline_details]
  cases s.ultimate.details <;> rfl

/-- A named constant is one in outline: its value is not asked for. -/
@[simp] theorem isNamedConstant_outline : (s.outline h).isNamedConstant = s.isNamedConstant := by
  simp [isNamedConstant]

/-- A name is constant in outline, also as the index of a loop: the kind of its scope is kept.
-/
@[simp] theorem isConstant_outline : (s.outline h).isConstant = s.isConstant := by
  simp [isConstant, isImpliedDoIndex]

/-- ALLOCATABLE is asked of the entity denoted, in outline as well. -/
@[simp] theorem isAllocatable_outline : (s.outline h).isAllocatable = s.isAllocatable := by
  simp [isAllocatable]

/-- An object is saved for an attribute, for its scope or for an initial value, and the outline
knows of each. -/
@[simp] theorem isSaved_outline : (s.outline h).isSaved = s.isSaved := by
  simp only [isSaved, ultimate_outline, has_outline, outline_details, outline_owner,
    Scope.kind_rename]
  cases s.ultimate.details <;> simp [Details.outline]

/-- A procedure is as pure in outline, by the attributes of the entity denoted. -/
@[simp] theorem isPureProcedure_outline : (s.outline h).isPureProcedure = s.isPureProcedure := by
  simp only [isPureProcedure, ultimate_outline, has_outline, outline_details]
  cases s.ultimate.details <;> rfl

/-- Contiguity of a name goes by its attributes, its rank and its shape, all of which are kept.
-/
@[simp] theorem isContiguous_outline : (s.outline h).isContiguous = s.isContiguous := by
  simp only [isContiguous, ultimate_outline, has_outline, rank_outline, isPointer,
    outline_details]
  cases s.ultimate.details <;> rfl

/-- The faults of an object name the entity, whose name is kept. -/
@[simp] theorem targetFindings_outline : (s.outline h).targetFindings = s.targetFindings := by
  simp [targetFindings]

/-- The fault of a component names the component itself. -/
@[simp] theorem componentFindings_outline :
    (s.outline h).componentFindings = s.componentFindings := by
  simp [componentFindings]

/-- The problem of a reference depends on the scopes around it, and so on different scopes
having different names. -/
theorem specificationProblem_outline {h : String → String} (hh : h.Injective) (scope : Scope) :
    (s.outline h).specificationProblem (scope.rename h) = s.specificationProblem scope := by
  simp [specificationProblem, Scope.hasAncestor_rename hh]

end Symbol

/-- **An outline keeps** what the form of an expression depends on. -/
theorem Symbol.keepsForm_outline (h : String → String) : KeepsForm (outline h) where
  rank := rank_outline h
  corank := corank_outline h
  isContiguous := isContiguous_outline h
  result? s table := by
    simp only [Procedure.result?, Procedure.characteristics?, ultimate_outline, outline_details]
    cases s.ultimate.details <;> rfl

/-- **An outline keeps** what the shape of an initial data target depends on. -/
theorem Symbol.keepsShape_outline (h : String → String) : KeepsShape (outline h) where
  rank := rank_outline h
  isConstant := isConstant_outline h
  isKindParameter := isKindParameter_outline h

variable (h : String → String)

/-! ### Answers over outlines -/

/-- A subscript has the rank that it has over outlines. -/
@[simp] theorem Subscript.rank_outline (s : Subscript Symbol) :
    (s.map (Symbol.outline h)).rank = s.rank :=
  s.rank_map (Symbol.rank_outline h)

namespace Expr

/-- An expression has the rank that it has over outlines. -/
@[simp] theorem rank_outline (e : Expr Symbol) : (e.map (Symbol.outline h)).rank = e.rank :=
  e.rank_map (Symbol.rank_outline h)

/-- An expression is printed alike: a printed name is the name of the symbol. -/
theorem text_outline (e : Expr Symbol) : (e.map (Symbol.outline h)).text = e.text :=
  e.text_map (Symbol.outline_name h)

/-! ### Constancy -/

/-- An expression is constant when it is over outlines. -/
@[simp] theorem isConstant_outline (e : Expr Symbol) :
    (e.map (Symbol.outline h)).isConstant = e.isConstant :=
  e.isConstant_map (Symbol.keepsShape_outline h)

/-! ### Initial data targets -/

/-- What stands in a slot is constant when it is over outlines. -/
@[simp] theorem slot_isConstant_outline (s : Slot Symbol) :
    (s.map (Symbol.outline h)).isConstant = s.isConstant :=
  s.isConstant_map (Symbol.keepsShape_outline h)

/-- A subscript is static when it is over outlines. -/
@[simp] theorem subscript_isStatic_outline (s : Subscript Symbol) :
    (s.map (Symbol.outline h)).isStatic = s.isStatic :=
  s.isStatic_map (Symbol.keepsShape_outline h)

/-- The pass for initial data targets takes the same steps over outlines. -/
theorem initialTarget_outline : initialTarget.AgreesAlong (Symbol.outline h) initialTarget where
  start := rfl
  combine := rfl
  decided := rfl
  symbol s := congrArg (TargetVerdict.mk true) (s.targetFindings_outline h)
  onVisit _ _ := rfl
  rule i := by
    show targetRule (i.map _) = targetRule i
    cases i with
    | expr e =>
      cases e with
      | entity ref => cases ref <;> simp [map, DataRef.map, targetRule]
      | typeParamInquiry parameter base => cases base <;> simp [map, targetRule]
      | _ => simp [map, targetRule]
    | subscript s => simp [targetRule]
    | _ => rfl

/-- The verdict on an expression is the one on it over outlines, faults included. -/
theorem targetVerdict_outline (e : Expr Symbol) :
    (e.map (Symbol.outline h)).targetVerdict = e.targetVerdict :=
  (initialTarget_outline h).visit_map (.expr e)

/-! ### Specifications -/

/-- The pass for specifications takes the same steps over outlines, in a scope under its other
name. -/
theorem specification_outline {h : String → String} (hh : h.Injective) (scope : Scope) :
    (specification (scope.rename h)).AgreesAlong (Symbol.outline h) (specification scope) where
  start := rfl
  combine := rfl
  decided := rfl
  symbol s := s.specificationProblem_outline hh scope
  onVisit _ _ := rfl
  rule i := by
    show specificationRule (i.map _) = specificationRule i
    cases i with
    | expr e =>
      cases e with
      | entity ref => cases ref <;> simp [map, DataRef.map, specificationRule]
      | call proc args rank =>
        cases proc <;> simp [map, Procedure.map, specificationRule, isConstant_call,
          Procedure.isIntrinsic]
      | typeParamInquiry parameter base => cases base <;> simp [map, specificationRule]
      | _ => simp [map, specificationRule]
    | _ => rfl

/-- The first problem of an expression is the one that it has over outlines. -/
theorem specificationProblem?_outline {h : String → String} (hh : h.Injective) (scope : Scope)
    (e : Expr Symbol) : (e.map (Symbol.outline h)).specificationProblem? (scope.rename h) =
      e.specificationProblem? scope :=
  (specification_outline hh scope).visit_map (.expr e)

end Expr

namespace Check

/-- A check in a scope under another name, of an expression over outlines. -/
def outline (c : Check) : Check :=
  ⟨c.name, c.scope.rename h, c.expr.map (Symbol.outline h), c.at?⟩

/-- **The report of a check depends on outlines alone,** and not on the names of scopes. -/
theorem run_outline {h : String → String} (hh : h.Injective) (c : Check) (table : IntrinsicTable)
    (selection : Selection) : (c.outline h).run table selection = c.run table selection := by
  have htarget : (c.outline h).targetAnswer = c.targetAnswer := by
    simp only [targetAnswer, outline, Expr.targetVerdict_outline, context]
  have hspecification : (c.outline h).specificationDiagnostics = c.specificationDiagnostics := by
    simp only [specificationDiagnostics, outline, Expr.specificationProblem?_outline hh, context]
  rw [run, run, htarget, hspecification]
  simp only [outline, Expr.text_outline, Expr.isConstant_outline,
    Expr.contiguous?_map (Symbol.keepsForm_outline h)]

end Check
end FortranExpr
