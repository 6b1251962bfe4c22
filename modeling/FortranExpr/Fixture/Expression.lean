/-
# Reading expressions

A record with a member `node` is an expression.  Symbols are referred to by id, and
only to ids that are declared already.  `Readers` holds the readers for the values
inside a record, so that the reader of each node kind is a function by itself;
`readExpr` ties them together.

| in the place of an expression | stands for |
| --- | --- |
| `null`, or nothing | an empty slot, where a slot may be empty |
| `{"triplet": [l, u, s]}` | a section, as a subscript |
| `{"impliedDo": loop}` | a loop, in an array constructor |
| `"assumed"`, `"deferred"` | `*`, `:`, as the value of a type parameter |
-/

import FortranExpr.Fixture.Field
import FortranExpr.Number.Hexadecimal

namespace FortranExpr

/-- Symbols by id, in order of their declarations. -/
abbrev SymbolIds := OrderedMap String Symbol

namespace SymbolIds

/-- The symbol of an id. -/
def resolve (ids : SymbolIds) (id : String) (path : Path) : Read Symbol :=
  match ids.get? id with
  | some s => .ok s
  | none => .reject (.unknownReference .symbol id) path

/-- The symbol whose id is the string in a field. -/
def field (ids : SymbolIds) (record : Json) (key : String) (path : Path) : Read Symbol := do
  let id ← Field.string record key path
  ids.resolve id (path.member key)

end SymbolIds

/-- The readers for the values inside a record. -/
structure Readers (v : Json) where
  expr : v.Below → Path → Read (Expr Symbol)
  loop : v.Below → Path → Read (ImpliedDo Symbol)

namespace Readers

variable {v : Json}

/-- The expression in a field that has to be present. -/
def required (r : Readers v) (key : String) (path : Path) : Read (Expr Symbol) :=
  match v.child? key with
  | some w => r.expr w (path.member key)
  | none => .expected .object (path.member key)

/-- An expression, or `null`. -/
def slot (r : Readers v) (w : v.Below) (path : Path) : Read (Slot Symbol) :=
  match w.1 with
  | .null => .ok .empty
  | _ => (r.expr w path).map .filled

/-- The expression in a field, if there is one. -/
def optional (r : Readers v) (key : String) (path : Path) : Read (Slot Symbol) :=
  match v.child? key with
  | some w => r.slot w (path.member key)
  | none => .ok .empty

/-- The items of an array field, each by the same reader. -/
def list {α : Type} (key : String) (path : Path) (read : v.Below → Path → Read α) :
    Read (List α) := do
  let items ← Field.arrayBelow v key path
  Read.items (path.member key) read items

/-- A name or a component. -/
def dataRef (r : Readers v) (key : String) (path : Path) : Read (DataRef Symbol) := do
  match ← r.required key path with
  | .entity ref => return ref
  | _ => .expected .dataRef (path.member key)

/-- One subscript. -/
def subscript (r : Readers v) (w : v.Below) (path : Path) : Read (Subscript Symbol) :=
  match w.child? "triplet" with
  | none => (r.expr w path).map .element
  | some parts =>
    match parts.items? with
    | none => .expected .tripletBounds (path.member "triplet")
    | some items =>
      if 3 < items.length then .expected .tripletBounds (path.member "triplet")
      else do
        let bounds ← Read.items (path.member "triplet") r.slot items
        return .triplet ⟨bounds[0]?.getD .empty, bounds[1]?.getD .empty, bounds[2]?.getD .empty⟩

/-- One item of an array constructor. -/
def arrayItem (r : Readers v) (w : v.Below) (path : Path) : Read (ArrayItem Symbol) :=
  match w.child? "impliedDo" with
  | some loop => (r.loop loop (path.member "impliedDo")).map .impliedDo
  | none => (r.expr w path).map .expr

/-- The value of a type parameter. -/
def paramValue (r : Readers v) (w : v.Below) (path : Path) : Read (ParamValue Symbol) :=
  match w.1 with
  | .str "assumed" => .ok .assumed
  | .str "deferred" => .ok .deferred
  | _ => (r.expr w path).map .explicit

/-- The members of an object field, where absence and `null` stand for none. -/
def members (key : String) (path : Path) : Read (List (String × v.Below)) :=
  match v.child? key with
  | none => .ok []
  | some w =>
    match w.1 with
    | .null => .ok []
    | .obj _ => .ok w.children
    | _ => .expected .object (path.member key)

end Readers

namespace Node

/-- One value of a literal. -/
def literalValue (value : Option Json) (path : Path) : Read Value :=
  match value with
  | some (.num x) => .ok (.number x)
  | some (.str s) => .ok (.characters s)
  | some (.bool b) => .ok (.logical b)
  | _ => .expected .literalValue path

/-- One extent of a shape. -/
def extent (value : Json) (path : Path) : Read Binary64 :=
  match value with
  | .num x => if x.isCount then .ok x else .expected .count path
  | _ => .expected .count path

/-- A literal: one `value`, or `values` that fill a `shape`.  Without a shape the values
are a list. -/
def constant (record : Json) (path : Path) : Read Constant := do
  let category ← Field.word record "type" path
  match record.get? "values" with
  | none =>
    let value ← literalValue (record.get? "value") (path.member "value")
    return ⟨category, [value], []⟩
  | some _ =>
    let items ← Field.array record "values" path
    let values ← Read.items (path.member "values") (fun v p => literalValue (some v) p) items
    let extents ← Field.array record "shape" path
    let given ← Read.items (path.member "shape") extent extents
    let shape := if given.isEmpty then [.ofNat values.length] else given
    let size := shape.foldl (· * ·) 1
    if size = .ofNat values.length then return ⟨category, values, shape⟩
    else .expected (.filledShape size shape) (path.member "values")

/-- A bit pattern: hexadecimal digits of either case. -/
def boz (record : Json) (path : Path) : Read Nat := do
  let digits ← Field.string record "value" path
  match Hexadecimal.read? digits.toList with
  | some n => return n
  | none => .expected .hexDigits (path.member "value")

/-- A procedure: an intrinsic by name, or else a symbol. -/
def procedure (ids : SymbolIds) (record : Json) (path : Path) : Read (Procedure Symbol) :=
  match record.get? "intrinsic" with
  | some (.str name) => .ok (.intrinsic name)
  | _ => (ids.field record "symbol" path).map .user

variable {v : Json}

/-- A call: the procedure, the arguments, the rank of the result. -/
def call (ids : SymbolIds) (r : Readers v) (path : Path) : Read (Expr Symbol) := do
  let proc ← Field.object (v.get? "proc") (path.member "proc")
  let proc ← procedure ids proc (path.member "proc")
  let args ← Readers.list "args" path r.slot
  let rank ← Field.count 0 v "rank" path
  return .call proc args rank

/-- An operation on one operand. -/
def unary (r : Readers v) (path : Path) : Read (Expr Symbol) := do
  let op ← Field.word v "op" path
  let category ← Field.word v "type" path
  let operand ← r.required "operand" path
  return .unary op category operand

/-- An operation on two operands. -/
def binary (r : Readers v) (path : Path) : Read (Expr Symbol) := do
  let op ← Field.word v "op" path
  let category ← Field.word v "type" path
  let left ← r.required "left" path
  let right ← r.required "right" path
  return .binary op category left right

/-- A comparison. -/
def relational (r : Readers v) (path : Path) : Read (Expr Symbol) := do
  let op ← Field.word v "op" path
  let left ← r.required "left" path
  let right ← r.required "right" path
  return .relational op left right

/-- An array reference. -/
def arrayRef (r : Readers v) (path : Path) : Read (Expr Symbol) := do
  let base ← r.dataRef "base" path
  let subscripts ← Readers.list "subscripts" path r.subscript
  return .arrayRef base subscripts

/-- A coindexed reference. -/
def coindexed (ids : SymbolIds) (r : Readers v) (path : Path) : Read (Expr Symbol) := do
  let base ← ids.field v "symbol" path
  let subscripts ← Readers.list "subscripts" path r.subscript
  let cosubscripts ← Readers.list "cosubscripts" path r.expr
  let stat ← r.optional "stat" path
  let team ← r.optional "team" path
  return .coindexed base subscripts cosubscripts stat team

/-- A component of an object. -/
def component (ids : SymbolIds) (r : Readers v) (path : Path) : Read (Expr Symbol) := do
  let base ← r.required "base" path
  let c ← ids.field v "component" path
  return .entity (.component base c)

/-- A substring. -/
def substring (r : Readers v) (path : Path) : Read (Expr Symbol) := do
  let parent ← r.required "parent" path
  let lower ← r.optional "lower" path
  let upper ← r.optional "upper" path
  return .substring parent lower upper

/-- A part of a complex value. -/
def complexPart (r : Readers v) (path : Path) : Read (Expr Symbol) := do
  let complex ← r.required "complex" path
  match v.get? "part" with
  | some (.str "re") => return .complexPart complex .re
  | some (.str "im") => return .complexPart complex .im
  | _ => .expected .complexPart (path.member "part")

/-- An array constructor. -/
def arrayConstructor (r : Readers v) (path : Path) : Read (Expr Symbol) := do
  let category ← Field.word v "type" path
  let values ← Readers.list "values" path r.arrayItem
  return .arrayConstructor category values

/-- A structure constructor: the type, its parameters by name, the components by id. -/
def structureConstructor (ids : SymbolIds) (r : Readers v) (path : Path) :
    Read (Expr Symbol) := do
  let type ← Field.string v "type" path
  let parameters ← Readers.members "parameters" path
  let parameters ← parameters.mapM fun (name, w) => do
    let value ← r.paramValue w ((path.member "parameters").member name)
    return (⟨name, value⟩ : ParamSetting Symbol)
  let components ← Readers.members "components" path
  let components ← components.mapM fun (id, w) => do
    let component ← ids.resolve id ((path.member "components").member id)
    let value ← r.expr w ((path.member "components").member id)
    return (⟨component, value⟩ : ComponentValue Symbol)
  return .structureConstructor type parameters components

/-- An inquiry about a type parameter, of an object or of the type itself. -/
def typeParamInquiry (ids : SymbolIds) (r : Readers v) (path : Path) : Read (Expr Symbol) := do
  let parameter ← ids.field v "parameter" path
  match v.get? "base" with
  | none => return .typeParamInquiry parameter none
  | some _ =>
    let base ← r.dataRef "base" path
    return .typeParamInquiry parameter (some base)

/-- A read of a descriptor field. -/
def descriptorInquiry (r : Readers v) (path : Path) : Read (Expr Symbol) := do
  let base ← r.dataRef "base" path
  let field ← Field.wordOf (v.get? "field") (path.member "field")
  let dimension ← Field.count 0 v "dimension" path
  return .descriptorInquiry base field dimension

/-- Character data without a name of the program. -/
def staticData (record : Json) (path : Path) : Read (Expr Symbol) := do
  let name ← Field.string record "name" path
  let data ← Field.string record "data" path
  return .staticData name data

/-- An expression, from the readers for the values inside it. -/
def expr (ids : SymbolIds) (r : Readers v) (path : Path) : Read (Expr Symbol) := do
  let _ ← Field.object (some v) path
  let kind : NodeKind ← Field.word v "node" path
  match kind with
  | .symbol => (ids.field v "symbol" path).map fun s => .entity (.symbol s)
  | .constant => (constant v path).map .constant
  | .boz => (boz v path).map fun n => .boz n
  | .null => return .nullPointer
  | .staticData => staticData v path
  | .procedure => (procedure ids v path).map .designator
  | .call => call ids r path
  | .unary => unary r path
  | .binary => binary r path
  | .parens => (r.required "operand" path).map .parens
  | .relational => relational r path
  | .arrayRef => arrayRef r path
  | .coarrayRef => coindexed ids r path
  | .component => component ids r path
  | .substring => substring r path
  | .complexPart => complexPart r path
  | .arrayConstructor => arrayConstructor r path
  | .structureConstructor => structureConstructor ids r path
  | .typeParamInquiry => typeParamInquiry ids r path
  | .descriptorInquiry => descriptorInquiry r path

/-- A loop, from the readers for the values inside it. -/
def loop (ids : SymbolIds) (r : Readers v) (path : Path) : Read (ImpliedDo Symbol) := do
  let _ ← Field.object (some v) path
  let index ← ids.field v "index" path
  let lower ← r.required "lower" path
  let upper ← r.required "upper" path
  let stride ← r.optional "stride" path
  let values ← Readers.list "values" path r.arrayItem
  return ⟨index, lower, upper, stride, values⟩

end Node

mutual

/-- Reads an expression. -/
def readExpr (ids : SymbolIds) (v : Json) (path : Path) : Read (Expr Symbol) :=
  Node.expr ids
    (⟨fun w p => readExpr ids w.1 p, fun w p => readLoop ids w.1 p⟩ : Readers v) path
termination_by sizeOf v
decreasing_by all_goals exact w.2

/-- Reads a loop. -/
def readLoop (ids : SymbolIds) (v : Json) (path : Path) : Read (ImpliedDo Symbol) :=
  Node.loop ids
    (⟨fun w p => readExpr ids w.1 p, fun w p => readLoop ids w.1 p⟩ : Readers v) path
termination_by sizeOf v
decreasing_by all_goals exact w.2

end

end FortranExpr
