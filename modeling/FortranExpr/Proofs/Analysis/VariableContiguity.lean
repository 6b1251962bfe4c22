/-
# Simple contiguity, form by form

What is no variable is simply contiguous, and a variable is by the rule of its own form: nothing
below it is visited.

| variable | simply contiguous |
| --- | --- |
| a name | its storage has no gaps |
| a component | the base is scalar, and the name of the component has no gaps |
| an array reference | the last name and the subscripts allow it |
| a coindexed reference | the subscripts allow it |
| a part of a complex value, a substring | never |
| a call | its result is a contiguous data pointer |

Two rows say less than they seem to.  A call is a variable only where the procedure is one of
the program, so a call of an intrinsic is contiguous whatever the table knows of its result, and
the table of intrinsics decides nothing (`contiguous?_table`).  And an array
reference asks for a scalar base only where all of its subscripts are elements: a section of a
component is contiguous even through an array of structures
(`isSimplyContiguous_of_arrayBase`).
-/

import FortranExpr.Proofs.Analysis.Contiguity
import FortranExpr.Proofs.Traversal.Stopping

namespace FortranExpr

/-- A positive rank is not zero. -/
theorem Binary64.ne_zero_of_isPositive {x : Binary64} (h : x.isPositive = true) : x ≠ 0 := by
  rintro rfl
  exact absurd h (by decide)

namespace Expr

variable {e : Expr Symbol} {table : IntrinsicTable}

/-! ### The rules -/

/-- What is no variable is contiguous. -/
theorem contiguous?_of_not_isVariable (h : e.isVariable = false) (table : IntrinsicTable) :
    e.contiguous? table = some true := by
  rw [contiguous?, h]
  rfl

/-- The rule of its form decides a variable. -/
theorem contiguous?_of_answer {r : Option Bool} (h : e.isVariable = true)
    (hrule : contiguityRule table (.expr e) = .answer r) : e.contiguous? table = r := by
  rw [contiguous?, if_pos h]
  exact Pass.visit_of_answer (contiguity table) hrule

/-- A name is as contiguous as its object. -/
theorem contiguous?_symbol (s : Symbol) (table : IntrinsicTable) :
    (entity (.symbol s)).contiguous? table = some s.isContiguous :=
  Pass.visit_of_named (contiguity table) rfl rfl

/-- A component is as contiguous as it is declared, if its base is scalar. -/
theorem contiguous?_component (base : Expr Symbol) (c : Symbol) (table : IntrinsicTable) :
    (entity (.component base c)).contiguous? table =
      some (decide (base.rank = 0) && c.isContiguous) :=
  contiguous?_of_answer rfl rfl

/-- A reference is as contiguous as its subscripts allow. -/
theorem contiguous?_arrayRef (base : DataRef Symbol) (subscripts : List (Subscript Symbol))
    (table : IntrinsicTable) :
    (arrayRef base subscripts).contiguous? table = some (isContiguousRef base subscripts) :=
  contiguous?_of_answer rfl rfl

/-- Of a coindexed reference the subscripts alone decide. -/
theorem contiguous?_coindexed (base : Symbol) (subscripts : List (Subscript Symbol))
    (cosubscripts : List (Expr Symbol)) (stat team : Slot Symbol) (table : IntrinsicTable) :
    (coindexed base subscripts cosubscripts stat team).contiguous? table =
      some (Subscript.contiguousRank? subscripts).isSome :=
  contiguous?_of_answer rfl rfl

/-- The parts of complex values lie apart. -/
theorem contiguous?_complexPart (complex : Expr Symbol) (part : ComplexPart)
    (table : IntrinsicTable) : (complexPart complex part).contiguous? table = some false :=
  contiguous?_of_answer rfl rfl

/-- A substring of a variable is not contiguous; any other one is. -/
theorem contiguous?_substring (parent : Expr Symbol) (lower upper : Slot Symbol)
    (table : IntrinsicTable) :
    (substring parent lower upper).contiguous? table = some (!parent.isVariable) := by
  cases h : parent.isVariable with
  | false => exact contiguous?_of_not_isVariable (by rw [isVariable, h]) table
  | true => exact contiguous?_of_answer (by rw [isVariable, h]) rfl

/-- A call of a procedure of the program is no variable, unless its result is a data pointer; and
then it has to be a contiguous one. -/
theorem contiguous?_call_user (s : Symbol) (args : List (Slot Symbol)) (rank : Binary64)
    (table : IntrinsicTable) :
    (call (.user s) args rank).contiguous? table =
      some (((Procedure.user s).result? table).all fun r =>
        !r.isDataPointer || r.has .contiguous) := by
  have hvariable : (call (.user s) args rank).isVariable =
      ((Procedure.user s).result? table).any FunctionResult.isDataPointer := rfl
  cases hpointer : ((Procedure.user s).result? table).any FunctionResult.isDataPointer with
  | false =>
    rw [contiguous?_of_not_isVariable (hvariable.trans hpointer)]
    cases hr : (Procedure.user s).result? table with
    | none => rfl
    | some r =>
      rw [hr, Option.any_some] at hpointer
      rw [Option.all_some, hpointer]
      rfl
  | true =>
    have hrule : contiguityRule table (.expr (call (.user s) args rank)) =
        .answer (some (((Procedure.user s).result? table).any
          FunctionResult.isContiguousPointer)) := rfl
    rw [contiguous?_of_answer (hvariable.trans hpointer) hrule]
    obtain ⟨r, hr, hp⟩ := (Option.any_eq_true _ _).1 hpointer
    rw [hr, Option.any_some, Option.all_some, FunctionResult.isContiguousPointer, hp]
    rfl

/-- A call of an intrinsic is no variable. -/
theorem contiguous?_call_intrinsic (name : String) (args : List (Slot Symbol)) (rank : Binary64)
    (table : IntrinsicTable) : (call (.intrinsic name) args rank).contiguous? table = some true :=
  contiguous?_of_not_isVariable (by rw [isVariable] <;> exact nofun) table

/-- **The table of intrinsics decides nothing.** -/
theorem contiguous?_table (e : Expr Symbol) (table other : IntrinsicTable) :
    e.contiguous? table = e.contiguous? other := by
  cases e with
  | entity ref =>
    cases ref with
    | symbol s => rw [contiguous?_symbol, contiguous?_symbol]
    | component base c => rw [contiguous?_component, contiguous?_component]
  | arrayRef base subscripts => rw [contiguous?_arrayRef, contiguous?_arrayRef]
  | coindexed => rw [contiguous?_coindexed, contiguous?_coindexed]
  | complexPart => rw [contiguous?_complexPart, contiguous?_complexPart]
  | substring => rw [contiguous?_substring, contiguous?_substring]
  | call proc args rank =>
    cases proc with
    | user s =>
      rw [contiguous?_call_user, contiguous?_call_user]
      rfl
    | intrinsic name => rw [contiguous?_call_intrinsic, contiguous?_call_intrinsic]
  | _ => rw [contiguous?_of_not_isVariable rfl, contiguous?_of_not_isVariable rfl]

/-! ### Calls that return data pointers -/

/-- **A call that returns a data pointer** is contiguous if and only if the pointer is, where the
procedure is one of the program, through any aliases; and it is contiguous in any case where the
procedure is an intrinsic. -/
theorem contiguous?_call_of_dataPointer {proc : Procedure Symbol} {r : FunctionResult}
    (hr : proc.result? table = some r) (hp : r.isDataPointer = true) (args : List (Slot Symbol))
    (rank : Binary64) :
    (∀ s, proc = .user s →
      (call proc args rank).contiguous? table = some (r.has .contiguous)) ∧
    ∀ name, proc = .intrinsic name → (call proc args rank).contiguous? table = some true := by
  constructor
  · rintro s rfl
    rw [contiguous?_call_user, hr, Option.all_some, hp]
    rfl
  · rintro name rfl
    exact contiguous?_call_intrinsic name args rank table

/-- A function of a module that returns a pointer, known by an alias of an alias. -/
def hostedView : Symbol :=
  let view : Symbol := ⟨0, "view", .child .global 0 .module "m",
    .procedure false (some ⟨some ⟨[.pointer], false⟩⟩), [.pure]⟩
  let used : Symbol := ⟨1, "view", .child .global 1 .subprogram "f", .use view, []⟩
  ⟨2, "view", .child .global 2 .subprogram "g", .hostAssoc used, []⟩

/-- The call `view()` of that function is not contiguous, for the pointer is not. -/
theorem contiguous?_call_hostedView :
    (Procedure.user hostedView).result? ∅ = some ⟨[.pointer], false⟩ ∧
      (⟨[.pointer], false⟩ : FunctionResult).isDataPointer = true ∧
      (call (.user hostedView) [] 1).contiguous? ∅ = some false := by
  have hr : (Procedure.user hostedView).result? ∅ = some ⟨[.pointer], false⟩ := rfl
  have hp : (⟨[.pointer], false⟩ : FunctionResult).isDataPointer = true := rfl
  exact ⟨hr, hp, (contiguous?_call_of_dataPointer hr hp [] 1).1 hostedView rfl⟩

/-- **A call of an intrinsic that returns a data pointer** without CONTIGUOUS is contiguous. -/
theorem contiguous?_call_intrinsicPointer :
    let table : IntrinsicTable := (∅ : IntrinsicTable).insert "view" ⟨some ⟨[.pointer], false⟩⟩
    (Procedure.intrinsic "view" : Procedure Symbol).result? table = some ⟨[.pointer], false⟩ ∧
      (⟨[.pointer], false⟩ : FunctionResult).isDataPointer = true ∧
      (⟨[.pointer], false⟩ : FunctionResult).has .contiguous = false ∧
      (call (.intrinsic "view") [] 0 : Expr Symbol).contiguous? table = some true := by
  decide +kernel

/-! ### What is selected through an array of structures -/

/-- **Through an array of structures** no component is contiguous, and a reference to an array
component is contiguous exactly when the component is as a name, the subscripts allow it, and
one of them is a section. -/
theorem isSimplyContiguous_of_arrayBase {base : Expr Symbol}
    (hbase : base.rank.isPositive = true) (c : Symbol) (subscripts : List (Subscript Symbol))
    (table : IntrinsicTable) :
    (entity (.component base c)).isSimplyContiguous table = false ∧
    ((arrayRef (.component base c) subscripts).isSimplyContiguous table = true ↔
      c.isContiguous = true ∧ (Subscript.contiguousRank? subscripts).isSome = true ∧
        ∃ s ∈ subscripts, s.isTriplet = true) := by
  have hzero : base.rank ≠ 0 := Binary64.ne_zero_of_isPositive hbase
  constructor
  · rw [isSimplyContiguous, contiguous?_component, decide_eq_false hzero]
    rfl
  · have hrank : (arrayRef (.component base c) subscripts).rank = base.rank := by
      rw [rank, if_pos hbase]
    rw [isSimplyContiguous, contiguous?_arrayRef, isContiguousRef, hrank, decide_eq_false hzero,
      beq_iff_eq, Option.some_inj, Bool.and_eq_true, DataRef.lastSymbol]
    refine and_congr_right fun _ => ?_
    cases h : Subscript.contiguousRank? subscripts with
    | none => simp
    | some r =>
      -- the scan counts the sections, so there is one where it ends above zero
      rw [← Subscript.countP_isTriplet_of_contiguousRank? h]
      simp [List.countP_pos_iff]

/-- An array of structures, as a whole. -/
def structures : Expr Symbol :=
  .entity (.symbol ⟨0, "xs", .global, .object ⟨1, 0, .explicit, false, none, none⟩, []⟩)

/-- An array component of the structures. -/
def field : Symbol :=
  ⟨1, "f", .child .global 0 .derivedType "t", .object ⟨1, 0, .explicit, false, none, none⟩, []⟩

/-- Neither `xs%f` nor `xs%f(1)` is contiguous. -/
theorem isSimplyContiguous_structures :
    structures.rank.isPositive = true ∧
      (entity (.component structures field)).isSimplyContiguous ∅ = false ∧
      (arrayRef (.component structures field)
        [.element (.constant ⟨.integer, [.integer 1], []⟩)]).isSimplyContiguous ∅ = false := by
  have hbase : structures.rank.isPositive = true := by decide +kernel
  obtain ⟨hcomponent, hsection⟩ := isSimplyContiguous_of_arrayBase hbase field
    [.element (.constant ⟨.integer, [.integer 1], []⟩)] ∅
  refine ⟨hbase, hcomponent, Bool.eq_false_iff.2 fun h => ?_⟩
  obtain ⟨-, -, s, hs, htriplet⟩ := hsection.1 h
  obtain rfl := List.mem_singleton.1 hs
  cases htriplet

/-- **The section `xs%f(:)`** through an array of structures is contiguous. -/
theorem isSimplyContiguous_sectionOfEach :
    structures.rank.isPositive = true ∧
      (arrayRef (.component structures field)
        [.triplet ⟨.empty, .empty, .empty⟩]).isSimplyContiguous ∅ = true := by
  decide +kernel

end Expr
end FortranExpr
