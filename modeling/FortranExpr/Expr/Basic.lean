/-
# Expression trees

Expressions as they stand after names are resolved, over a type `σ` of symbols.

| syntax class | forms |
| --- | --- |
| `Expr` | literals, procedures and calls, operations, designators, constructors, inquiries |
| `DataRef` | `x`, `base%x`: what may be subscripted or inquired about |
| `Subscript` | an element (or vector) subscript, or a `Triplet` `lower:upper:stride` |
| `ArrayItem` | an item of an array constructor: an expression or an `ImpliedDo` loop |
| `ParamValue` | the value of a type parameter: explicit, `*` or `:` |
| `Slot` | a place for an expression that may stay empty |
-/

import FortranExpr.Number.Binary64

namespace FortranExpr

/-- The type category of a literal, an operation or an array constructor. -/
inductive TypeCategory where
  | integer
  | real
  | complex
  | character
  | logical
  | derived
deriving DecidableEq, Repr

/-- Operations on one operand. -/
inductive UnaryOp where
  | negate
  | not
  | convert
deriving DecidableEq, Repr

/-- Operations on two operands of one category. -/
inductive BinaryOp where
  | add
  | subtract
  | multiply
  | divide
  | power
  | concat
  | and
  | or
  | eqv
  | neqv
deriving DecidableEq, Repr

/-- Comparisons. -/
inductive RelationalOp where
  | lt
  | le
  | eq
  | ne
  | ge
  | gt
deriving DecidableEq, Repr

/-- The part of a complex value that is selected. -/
inductive ComplexPart where
  | re
  | im
deriving DecidableEq, Repr

/-- The field of an array descriptor that is read. -/
inductive DescriptorField where
  | lowerBound
  | extent
  | stride
  | rank
  | len
deriving DecidableEq, Repr

/-- One value of a literal. -/
inductive Value where
  | number (x : Binary64)
  | integer (n : Int)
  | characters (s : String)
  | logical (b : Bool)
deriving DecidableEq

/-- A typed literal.  It is scalar when its shape is empty; otherwise its values
stand in array element order. -/
structure Constant where
  category : TypeCategory
  values : List Value
  shape : List Binary64 := []
deriving DecidableEq

/-- A procedure is a symbol of the program or an intrinsic. -/
inductive Procedure (σ : Type) where
  | user (symbol : σ)
  | intrinsic (name : String)

mutual

/-- An expression. -/
inductive Expr (σ : Type) : Type
  | entity (ref : DataRef σ)
  | constant (c : Constant)
  | boz (bits : Int)
  | nullPointer
  | staticData (name data : String)
  | designator (proc : Procedure σ)
  | call (proc : Procedure σ) (args : List (Slot σ)) (rank : Binary64)
  | unary (op : UnaryOp) (category : TypeCategory) (operand : Expr σ)
  | binary (op : BinaryOp) (category : TypeCategory) (left right : Expr σ)
  | parens (operand : Expr σ)
  | relational (op : RelationalOp) (left right : Expr σ)
  | arrayRef (base : DataRef σ) (subscripts : List (Subscript σ))
  | coindexed (base : σ) (subscripts : List (Subscript σ)) (cosubscripts : List (Expr σ))
      (stat team : Slot σ)
  | substring (parent : Expr σ) (lower upper : Slot σ)
  | complexPart (complex : Expr σ) (part : ComplexPart)
  | arrayConstructor (category : TypeCategory) (values : List (ArrayItem σ))
  | structureConstructor (type : String) (parameters : List (ParamSetting σ))
      (components : List (ComponentValue σ))
  | typeParamInquiry (parameter : σ) (base : Option (DataRef σ))
  | descriptorInquiry (base : DataRef σ) (field : DescriptorField) (dimension : Binary64)

/-- A named data object, or a component of an object. -/
inductive DataRef (σ : Type) : Type
  | symbol (s : σ)
  | component (base : Expr σ) (c : σ)

/-- A place for an expression that may stay empty: an omitted argument, bound or
stride. -/
inductive Slot (σ : Type) : Type
  | empty
  | filled (e : Expr σ)

/-- The section `lower:upper:stride` of one dimension. -/
structure Triplet (σ : Type) : Type where
  lower : Slot σ
  upper : Slot σ
  stride : Slot σ

/-- One subscript; an element subscript of positive rank is a vector subscript. -/
inductive Subscript (σ : Type) : Type
  | element (e : Expr σ)
  | triplet (t : Triplet σ)

/-- One item of an array constructor. -/
inductive ArrayItem (σ : Type) : Type
  | expr (e : Expr σ)
  | impliedDo (loop : ImpliedDo σ)

/-- The loop `(values, index = lower, upper, stride)` of an array constructor. -/
structure ImpliedDo (σ : Type) : Type where
  index : σ
  lower : Expr σ
  upper : Expr σ
  stride : Slot σ
  values : List (ArrayItem σ)

/-- The value of a type parameter: an expression, assumed (`*`) or deferred (`:`). -/
inductive ParamValue (σ : Type) : Type
  | explicit (e : Expr σ)
  | assumed
  | deferred

/-- The setting `name=value` of a type parameter. -/
structure ParamSetting (σ : Type) : Type where
  name : String
  value : ParamValue σ

/-- The value of one component in a structure constructor. -/
structure ComponentValue (σ : Type) : Type where
  component : σ
  value : Expr σ

end

variable {σ : Type}

/-- The intrinsic named `name` is called, or designated. -/
def Procedure.isIntrinsic (name : String) : Procedure σ → Bool
  | user _ => false
  | intrinsic n => n == name

/-- The symbol that is subscripted, or selected last. -/
def DataRef.lastSymbol : DataRef σ → σ
  | symbol s => s
  | component _ c => c

namespace Constant

/-- The value of a scalar literal. -/
def scalar? (c : Constant) : Option Value :=
  match c.shape with
  | [] => c.values.head?
  | _ :: _ => none

end Constant

namespace Value

/-- The number zero, in either representation. -/
def isZero : Value → Bool
  | number x => decide (x = 0)
  | integer n => decide (n = 0)
  | _ => false

/-- The integer that a numeric value equals. -/
def toInt? : Value → Option Int
  | number x => x.toInt?
  | integer n => some n
  | _ => none

end Value

namespace Expr

/-- The operand under any number of parentheses. -/
def unwrap : Expr σ → Expr σ
  | parens operand => operand.unwrap
  | e => e

/-- The value of a literal that is scalar, seen through parentheses. -/
def scalarValue? (e : Expr σ) : Option Value :=
  match e.unwrap with
  | constant c => c.scalar?
  | _ => none

/-- The value of a scalar integer literal, seen through parentheses. -/
def integerValue? (e : Expr σ) : Option Int :=
  match e.unwrap with
  | constant c => if c.category = .integer then c.scalar?.bind Value.toInt? else none
  | _ => none

end Expr
end FortranExpr
