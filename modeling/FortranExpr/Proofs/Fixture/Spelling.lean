/-
# Expressions written as JSON

`Expr.toJson` writes an expression, given a name for each symbol.  Every node is an object that
begins with its kind; what is no expression takes the place of one without being taken for it:

| part | written |
| --- | --- |
| an empty slot | `null`, which is no object |
| a section | `{"triplet": [l, u, s]}`, and no node has such a member |
| a loop | `{"impliedDo": loop}`, and no node has such a member |
| `*`, `:` for a type parameter | `"assumed"`, `"deferred"`, which are no objects |
| an intrinsic procedure | under `intrinsic`, and a symbol under `symbol` |
| an inquiry about a type itself | without `base` |
| a literal that is no scalar | with `values`, and a scalar with `value` |

Integers of unlimited size are no JSON values; a literal with one is not written
(`Value.toJson`), and cannot be.
-/

import FortranExpr.Fixture.Expression

namespace FortranExpr

/-- A node of some kind. -/
def Json.node (kind : NodeKind) (fields : List (String × Json)) : Json :=
  .obj (("node", .str (Vocabulary.word kind)) :: fields)

/-- A value of a literal. -/
def Value.toJson : Value → Json
  | .number x => .num x
  | .integer _ => .null
  | .characters s => .str s
  | .logical b => .bool b

namespace Constant

/-- The first value of a literal. -/
def headJson (c : Constant) : Json := (c.values.head?.map Value.toJson).getD .null

/-- The members of a literal. -/
def members (c : Constant) : List (String × Json) :=
  ("type", .str (Vocabulary.word c.category)) ::
    match c.shape with
    | [] => [("value", c.headJson)]
    | shape => [("values", .arr (c.values.map Value.toJson)), ("shape", .arr (shape.map .num))]

end Constant

variable {σ : Type}

/-- The member that says which procedure is meant. -/
def Procedure.members (name : σ → String) : Procedure σ → List (String × Json)
  | .user s => [("symbol", .str (name s))]
  | .intrinsic n => [("intrinsic", .str n)]

mutual

/-- An expression as a node. -/
def Expr.toJson (name : σ → String) : Expr σ → Json
  | .entity ref => ref.toJson name
  | .constant c => .node .constant c.members
  | .boz bits => .node .boz [("value", .str (.ofList (Hexadecimal.digits bits.toNat)))]
  | .nullPointer => .node .null []
  | .staticData n data => .node .staticData [("name", .str n), ("data", .str data)]
  | .designator proc => .node .procedure (proc.members name)
  | .call proc args rank => .node .call [("proc", .obj (proc.members name)),
      ("args", .arr (args.map fun a => a.toJson name)), ("rank", .num rank)]
  | .unary op category operand => .node .unary [("op", .str (Vocabulary.word op)),
      ("type", .str (Vocabulary.word category)), ("operand", operand.toJson name)]
  | .binary op category left right => .node .binary [("op", .str (Vocabulary.word op)),
      ("type", .str (Vocabulary.word category)), ("left", left.toJson name),
      ("right", right.toJson name)]
  | .parens operand => .node .parens [("operand", operand.toJson name)]
  | .relational op left right => .node .relational [("op", .str (Vocabulary.word op)),
      ("left", left.toJson name), ("right", right.toJson name)]
  | .arrayRef base subscripts => .node .arrayRef [("base", base.toJson name),
      ("subscripts", .arr (subscripts.map fun s => s.toJson name))]
  | .coindexed base subscripts cosubscripts stat team => .node .coarrayRef [
      ("symbol", .str (name base)), ("subscripts", .arr (subscripts.map fun s => s.toJson name)),
      ("cosubscripts", .arr (cosubscripts.map fun e => e.toJson name)),
      ("stat", stat.toJson name), ("team", team.toJson name)]
  | .substring parent lower upper => .node .substring [("parent", parent.toJson name),
      ("lower", lower.toJson name), ("upper", upper.toJson name)]
  | .complexPart complex .re => .node .complexPart [("complex", complex.toJson name),
      ("part", .str "re")]
  | .complexPart complex .im => .node .complexPart [("complex", complex.toJson name),
      ("part", .str "im")]
  | .arrayConstructor category values => .node .arrayConstructor [
      ("type", .str (Vocabulary.word category)),
      ("values", .arr (values.map fun v => v.toJson name))]
  | .structureConstructor type parameters components => .node .structureConstructor [
      ("type", .str type), ("parameters", .obj (parameters.map fun p => p.member name)),
      ("components", .obj (components.map fun c => c.member name))]
  | .typeParamInquiry parameter none => .node .typeParamInquiry [
      ("parameter", .str (name parameter))]
  | .typeParamInquiry parameter (some base) => .node .typeParamInquiry [
      ("parameter", .str (name parameter)), ("base", base.toJson name)]
  | .descriptorInquiry base field dimension => .node .descriptorInquiry [
      ("base", base.toJson name), ("field", .str (Vocabulary.word field)),
      ("dimension", .num dimension)]

/-- A name or a component as a node. -/
def DataRef.toJson (name : σ → String) : DataRef σ → Json
  | .symbol s => .node .symbol [("symbol", .str (name s))]
  | .component base c => .node .component [("base", base.toJson name), ("component", .str (name c))]

/-- A slot: `null` when it is empty. -/
def Slot.toJson (name : σ → String) : Slot σ → Json
  | .empty => .null
  | .filled e => e.toJson name

/-- The bounds and the stride of a section. -/
def Triplet.toJson (name : σ → String) : Triplet σ → List Json
  | ⟨lower, upper, stride⟩ => [lower.toJson name, upper.toJson name, stride.toJson name]

/-- A subscript: a section is marked as such. -/
def Subscript.toJson (name : σ → String) : Subscript σ → Json
  | .element e => e.toJson name
  | .triplet t => .obj [("triplet", .arr (t.toJson name))]

/-- An item of an array constructor: a loop is marked as such. -/
def ArrayItem.toJson (name : σ → String) : ArrayItem σ → Json
  | .expr e => e.toJson name
  | .impliedDo loop => .obj [("impliedDo", loop.toJson name)]

/-- A loop. -/
def ImpliedDo.toJson (name : σ → String) : ImpliedDo σ → Json
  | ⟨index, lower, upper, stride, values⟩ => .obj [("index", .str (name index)),
      ("lower", lower.toJson name), ("upper", upper.toJson name), ("stride", stride.toJson name),
      ("values", .arr (values.map fun v => v.toJson name))]

/-- The value of a type parameter. -/
def ParamValue.toJson (name : σ → String) : ParamValue σ → Json
  | .explicit e => e.toJson name
  | .assumed => .str "assumed"
  | .deferred => .str "deferred"

/-- The setting of a type parameter as a member. -/
def ParamSetting.member (name : σ → String) : ParamSetting σ → String × Json
  | ⟨n, value⟩ => (n, value.toJson name)

/-- The value of a component as a member. -/
def ComponentValue.member (name : σ → String) : ComponentValue σ → String × Json
  | ⟨component, value⟩ => (name component, value.toJson name)

end

theorem ParamSetting.fst_member (p : ParamSetting σ) (name : σ → String) :
    (p.member name).1 = p.name := by
  cases p
  rw [member]

theorem ComponentValue.fst_member (c : ComponentValue σ) (name : σ → String) :
    (c.member name).1 = name c.component := by
  cases c
  rw [member]

/-- **An expression is an object, and marked neither as a section nor as a loop.** -/
theorem Expr.exists_toJson_eq_obj (e : Expr σ) (name : σ → String) :
    ∃ written, e.toJson name = .obj written ∧ (Json.obj written).get? "triplet" = none ∧
      (Json.obj written).get? "impliedDo" = none := by
  cases e with
  | entity ref => cases ref <;> rw [toJson, DataRef.toJson] <;> exact ⟨_, rfl, rfl, rfl⟩
  | constant c =>
    obtain ⟨category, values, shape⟩ := c
    rw [toJson]
    cases shape <;> exact ⟨_, rfl, rfl, rfl⟩
  | designator proc => rw [toJson]; cases proc <;> exact ⟨_, rfl, rfl, rfl⟩
  | complexPart complex part => cases part <;> rw [toJson] <;> exact ⟨_, rfl, rfl, rfl⟩
  | typeParamInquiry parameter base => cases base <;> rw [toJson] <;> exact ⟨_, rfl, rfl, rfl⟩
  | _ => rw [toJson]; exact ⟨_, rfl, rfl, rfl⟩

end FortranExpr
