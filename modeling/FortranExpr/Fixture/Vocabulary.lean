/-
# The words of the fixture format

Every enumeration is written with a fixed word for each of its values.  `topic` is
what an unknown word is called in the message about it.
-/

import FortranExpr.Fixture.Failure
import FortranExpr.Symbol

namespace FortranExpr

/-- An enumeration with a word for each value. -/
class Vocabulary (α : Type) where
  topic : String
  all : List α
  word : α → String

namespace Vocabulary

/-- The value that a word stands for. -/
def ofWord? {α : Type} [Vocabulary α] (text : String) : Option α :=
  (all : List α).find? fun a => word a == text

end Vocabulary

/-- Every kind but that of the global scope, which no document makes. -/
instance : Vocabulary ScopeKind where
  topic := "kind"
  all := [.module, .mainProgram, .subprogram, .blockConstruct, .derivedType, .impliedDos]
  word
    | .global => "global"
    | .module => "module"
    | .mainProgram => "program"
    | .subprogram => "subprogram"
    | .blockConstruct => "block"
    | .derivedType => "derivedType"
    | .impliedDos => "impliedDos"

instance : Vocabulary Attr where
  topic := "attribute"
  all := [.pointer, .target, .allocatable, .contiguous, .optional, .intentIn, .intentOut,
    .intentInOut, .save, .parameter, .pure, .elemental, .impure]
  word
    | .pointer => "pointer"
    | .target => "target"
    | .allocatable => "allocatable"
    | .contiguous => "contiguous"
    | .optional => "optional"
    | .intentIn => "intentIn"
    | .intentOut => "intentOut"
    | .intentInOut => "intentInOut"
    | .save => "save"
    | .parameter => "parameter"
    | .pure => "pure"
    | .elemental => "elemental"
    | .impure => "impure"

instance : Vocabulary ResultAttr where
  topic := "result attribute"
  all := [.allocatable, .pointer, .contiguous]
  word
    | .allocatable => "allocatable"
    | .pointer => "pointer"
    | .contiguous => "contiguous"

instance : Vocabulary ShapeKind where
  topic := "shape"
  all := [.explicit, .assumedShape, .deferredShape, .assumedSize, .assumedRank]
  word
    | .explicit => "explicit"
    | .assumedShape => "assumedShape"
    | .deferredShape => "deferredShape"
    | .assumedSize => "assumedSize"
    | .assumedRank => "assumedRank"

instance : Vocabulary TypeCategory where
  topic := "type"
  all := [.integer, .real, .complex, .character, .logical, .derived]
  word
    | .integer => "integer"
    | .real => "real"
    | .complex => "complex"
    | .character => "character"
    | .logical => "logical"
    | .derived => "derived"

instance : Vocabulary UnaryOp where
  topic := "op"
  all := [.negate, .not, .convert]
  word
    | .negate => "negate"
    | .not => "not"
    | .convert => "convert"

instance : Vocabulary BinaryOp where
  topic := "op"
  all := [.add, .subtract, .multiply, .divide, .power, .concat, .and, .or, .eqv, .neqv]
  word
    | .add => "add"
    | .subtract => "subtract"
    | .multiply => "multiply"
    | .divide => "divide"
    | .power => "power"
    | .concat => "concat"
    | .and => "and"
    | .or => "or"
    | .eqv => "eqv"
    | .neqv => "neqv"

instance : Vocabulary RelationalOp where
  topic := "op"
  all := [.lt, .le, .eq, .ne, .ge, .gt]
  word
    | .lt => "lt"
    | .le => "le"
    | .eq => "eq"
    | .ne => "ne"
    | .ge => "ge"
    | .gt => "gt"

instance : Vocabulary DescriptorField where
  topic := "descriptor field"
  all := [.lowerBound, .extent, .stride, .rank, .len]
  word
    | .lowerBound => "lowerBound"
    | .extent => "extent"
    | .stride => "stride"
    | .rank => "rank"
    | .len => "len"

/-- The kinds of symbol details. -/
inductive DetailsKind where
  | object
  | procedure
  | use
  | hostAssoc
  | typeParam
  | derivedType
deriving DecidableEq, Repr

instance : Vocabulary DetailsKind where
  topic := "symbol kind"
  all := [.object, .procedure, .use, .hostAssoc, .typeParam, .derivedType]
  word
    | .object => "object"
    | .procedure => "procedure"
    | .use => "use"
    | .hostAssoc => "hostAssoc"
    | .typeParam => "typeParam"
    | .derivedType => "derivedType"

/-- The kinds of expression nodes. -/
inductive NodeKind where
  | symbol
  | constant
  | boz
  | null
  | staticData
  | procedure
  | call
  | unary
  | binary
  | parens
  | relational
  | arrayRef
  | coarrayRef
  | component
  | substring
  | complexPart
  | arrayConstructor
  | structureConstructor
  | typeParamInquiry
  | descriptorInquiry
deriving DecidableEq, Repr

instance : Vocabulary NodeKind where
  topic := "node kind"
  all := [.symbol, .constant, .boz, .null, .staticData, .procedure, .call, .unary, .binary,
    .parens, .relational, .arrayRef, .coarrayRef, .component, .substring, .complexPart,
    .arrayConstructor, .structureConstructor, .typeParamInquiry, .descriptorInquiry]
  word
    | .symbol => "symbol"
    | .constant => "constant"
    | .boz => "boz"
    | .null => "null"
    | .staticData => "staticData"
    | .procedure => "procedure"
    | .call => "call"
    | .unary => "unary"
    | .binary => "binary"
    | .parens => "parens"
    | .relational => "relational"
    | .arrayRef => "arrayRef"
    | .coarrayRef => "coarrayRef"
    | .component => "component"
    | .substring => "substring"
    | .complexPart => "complexPart"
    | .arrayConstructor => "arrayConstructor"
    | .structureConstructor => "structureConstructor"
    | .typeParamInquiry => "typeParamInquiry"
    | .descriptorInquiry => "descriptorInquiry"

end FortranExpr
