/-
# Characteristics of procedures

What is known of a procedure from the outside: whether it is a function, and what
its result is like.  The characteristics of intrinsic procedures are looked up by
name; those of a procedure of the program stand with its symbol.
-/

import FortranExpr.OrderedMap

namespace FortranExpr

/-- An attribute of a function result. -/
inductive ResultAttr where
  | allocatable
  | pointer
  | contiguous
deriving DecidableEq, Repr

/-- The result of a function.  Attributes stand in the order they were given, without
repeats. -/
structure FunctionResult where
  attrs : List ResultAttr
  procedurePointer : Bool
deriving DecidableEq, Repr

namespace FunctionResult

/-- The result with the given attributes. -/
def ofAttrs (attrs : List ResultAttr) (procedurePointer : Bool) : FunctionResult :=
  ⟨attrs.eraseDups, procedurePointer⟩

/-- The result has an attribute. -/
def has (r : FunctionResult) (a : ResultAttr) : Bool := r.attrs.contains a

/-- The result is a pointer to data. -/
def isDataPointer (r : FunctionResult) : Bool := !r.procedurePointer && r.has .pointer

/-- The result is a pointer to contiguous data. -/
def isContiguousPointer (r : FunctionResult) : Bool := r.isDataPointer && r.has .contiguous

end FunctionResult

/-- The characteristics of a procedure; a subroutine has no function result. -/
structure Characteristics where
  result : Option FunctionResult
deriving DecidableEq, Repr

/-- The characteristics of intrinsic procedures by name. -/
abbrev IntrinsicTable := OrderedMap String Characteristics

end FortranExpr
