/-
# Expressions in source form

Precedence is not reconstructed: an operand that is itself an operation stands in
parentheses, and so does a negative literal.

| node | text |
| --- | --- |
| scalar literal | `12`, `'it''s'`, `.true.` |
| array literal | `[1, 2]`, `reshape([1, 2], [2, 1])` |
| bit pattern | `z'ff'` |
| operation | `-x`, `.not. x`, `integer(x)`, `x // y`, `x /= y` |
| designator | `x`, `b%c`, `x(1, 2:3)`, `x(1)[2, stat=s, team=t]`, `x(1:2)`, `z%re` |
| constructor | `[1, (i, i = 1, 3)]`, `t(k=4)(x, y)` |
| inquiry | `x%k`, `size(x, dim=1)`, `rank(x)` |
-/

import FortranExpr.Number.Hexadecimal
import FortranExpr.Number.Layout
import FortranExpr.Symbol
import FortranExpr.Text.Quoted

namespace FortranExpr

/-- The name of a type category, also the function that converts to it. -/
def TypeCategory.text : TypeCategory → String
  | integer => "integer"
  | real => "real"
  | complex => "complex"
  | character => "character"
  | logical => "logical"
  | derived => "derived"

/-- The operator between two operands. -/
def BinaryOp.text : BinaryOp → String
  | add => "+"
  | subtract => "-"
  | multiply => "*"
  | divide => "/"
  | power => "**"
  | concat => "//"
  | and => ".and."
  | or => ".or."
  | eqv => ".eqv."
  | neqv => ".neqv."

/-- The sign of a comparison. -/
def RelationalOp.text : RelationalOp → String
  | lt => "<"
  | le => "<="
  | eq => "=="
  | ne => "/="
  | ge => ">="
  | gt => ">"

/-- The part of a complex value. -/
def ComplexPart.text : ComplexPart → String
  | re => "re"
  | im => "im"

/-- The intrinsic function that reads a descriptor field. -/
def DescriptorField.text : DescriptorField → String
  | lowerBound => "lbound"
  | extent => "size"
  | stride => "stride"
  | rank => "rank"
  | len => "len"

/-- Bounds, extents and strides belong to one dimension. -/
def DescriptorField.hasDimension : DescriptorField → Bool
  | lowerBound | extent | stride => true
  | rank | len => false

/-- Character data between apostrophes. -/
def quoted (data : String) : String := String.ofList (Quoted.quote data.toList)

/-- Items with commas between them. -/
def joinList (items : List String) : String := ", ".intercalate items

namespace Value

/-- The text of a value by itself. -/
def text : Value → String
  | number x => x.text
  | integer n => n.repr
  | characters s => s
  | logical b => if b then "true" else "false"

/-- The truth of a value as a logical literal: zero, `nan`, empty text and false are
false. -/
def truth : Value → Bool
  | number x => !decide (x = 0) && !decide (x = .nan)
  | integer n => !decide (n = 0)
  | characters s => !s.isEmpty
  | logical b => b

/-- A number below zero. -/
def isNegative : Value → Bool
  | number x => x.isNegative
  | integer n => decide (n < 0)
  | _ => false

/-- The text of a value in a literal of a category. -/
def literal (category : TypeCategory) (v : Value) : String :=
  match category, v with
  | .character, characters s => quoted s
  | .logical, v => if v.truth then ".true." else ".false."
  | _, v => v.text

end Value

namespace Constant

/-- The text of a literal. -/
def text (c : Constant) : String :=
  let items := c.values.map (Value.literal c.category)
  match c.shape with
  | [] => items.headD ""
  | [_] => "[" ++ joinList items ++ "]"
  | shape => "reshape([" ++ joinList items ++ "], [" ++ joinList (shape.map Binary64.text) ++ "])"

end Constant

/-- The text of a bit pattern. -/
def bozText (bits : Int) : String := "z'" ++ String.ofList (Hexadecimal.ofInt bits) ++ "'"

namespace Expr

variable {σ : Type}

/-- Operations and negative literals, which need parentheses as operands. -/
def isOperation : Expr σ → Bool
  | constant c => c.shape.isEmpty && c.values.head?.any Value.isNegative
  | unary op _ _ => decide (op ≠ .convert)
  | binary _ _ _ _ | relational _ _ _ => true
  | _ => false

/-- The text of an expression as an operand. -/
def asOperand (e : Expr σ) (text : String) : String :=
  if e.isOperation then "(" ++ text ++ ")" else text

end Expr

mutual

/-- The text of an expression. -/
def Expr.text : Expr Symbol → String
  | .entity ref => ref.text
  | .constant c => c.text
  | .boz bits => bozText bits
  | .nullPointer => "null()"
  | .staticData _ data => quoted data
  | .designator proc => proc.name
  | .call proc args _ => proc.name ++ "(" ++ joinList (args.map fun a => a.text) ++ ")"
  | .unary .negate _ operand => "-" ++ operand.asOperand operand.text
  | .unary .not _ operand => ".not. " ++ operand.asOperand operand.text
  | .unary .convert category operand => category.text ++ "(" ++ operand.text ++ ")"
  | .binary op _ left right =>
    left.asOperand left.text ++ " " ++ op.text ++ " " ++ right.asOperand right.text
  | .parens operand => "(" ++ operand.text ++ ")"
  | .relational op left right =>
    left.asOperand left.text ++ " " ++ op.text ++ " " ++ right.asOperand right.text
  | .arrayRef base subscripts =>
    base.text ++ "(" ++ joinList (subscripts.map fun s => s.text) ++ ")"
  | .coindexed base subscripts cosubscripts stat team =>
    base.name ++
      (if subscripts.isEmpty then ""
        else "(" ++ joinList (subscripts.map fun s => s.text) ++ ")") ++
      "[" ++ joinList ((cosubscripts.map fun c => c.text) ++
        stat.textAfter "stat=" ++ team.textAfter "team=") ++ "]"
  | .substring parent lower upper =>
    parent.text ++ "(" ++ lower.text ++ ":" ++ upper.text ++ ")"
  | .complexPart complex part => complex.text ++ "%" ++ part.text
  | .arrayConstructor _ values => "[" ++ joinList (values.map fun v => v.text) ++ "]"
  | .structureConstructor type parameters components =>
    type ++
      (if parameters.isEmpty then ""
        else "(" ++ joinList (parameters.map fun p => p.text) ++ ")") ++
      "(" ++ joinList (components.map fun c => c.text) ++ ")"
  | .typeParamInquiry parameter none => parameter.name
  | .typeParamInquiry parameter (some base) => base.text ++ "%" ++ parameter.name
  | .descriptorInquiry base field dimension =>
    field.text ++ "(" ++ base.text ++
      (if field.hasDimension then ", dim=" ++ (dimension + 1).text else "") ++ ")"

/-- The text of a named object or a component. -/
def DataRef.text : DataRef Symbol → String
  | .symbol s => s.name
  | .component base c => base.text ++ "%" ++ c.name

/-- An empty slot has an empty text. -/
def Slot.text : Slot Symbol → String
  | .empty => ""
  | .filled e => e.text

/-- The text of a filled slot after a mark; nothing for an empty one. -/
def Slot.textAfter (mark : String) : Slot Symbol → List String
  | .empty => []
  | .filled e => [mark ++ e.text]

/-- The text of a subscript. -/
def Subscript.text : Subscript Symbol → String
  | .element e => e.text
  | .triplet t => t.text

/-- The text of a section of one dimension. -/
def Triplet.text : Triplet Symbol → String
  | ⟨lower, upper, stride⟩ =>
    ":".intercalate (lower.text :: upper.text :: stride.textAfter "")

/-- The text of an item of an array constructor. -/
def ArrayItem.text : ArrayItem Symbol → String
  | .expr e => e.text
  | .impliedDo loop => loop.text

/-- The text of a loop. -/
def ImpliedDo.text : ImpliedDo Symbol → String
  | ⟨index, lower, upper, stride, values⟩ =>
    "(" ++ joinList (values.map fun v => v.text) ++ ", " ++ index.name ++ " = " ++
      joinList (lower.text :: upper.text :: stride.textAfter "") ++ ")"

/-- The text of the value of a type parameter. -/
def ParamValue.text : ParamValue Symbol → String
  | .explicit e => e.text
  | .assumed => "*"
  | .deferred => ":"

/-- The text of the setting of a type parameter. -/
def ParamSetting.text : ParamSetting Symbol → String
  | ⟨name, value⟩ => name ++ "=" ++ value.text

/-- Components are told apart by their order alone. -/
def ComponentValue.text : ComponentValue Symbol → String
  | ⟨_, value⟩ => value.text

end

end FortranExpr
