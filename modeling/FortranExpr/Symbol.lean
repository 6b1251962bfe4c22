/-
# Symbols

A symbol is a named entity that a scope owns.  Use and host association make
aliases: `ultimate` is the entity that an alias finally denotes, and every question
about storage, rank or constancy is answered by it.

| details | denotes |
| --- | --- |
| `object` | a data object, with rank, corank and shape |
| `procedure` | a procedure |
| `use`, `hostAssoc` | an alias |
| `typeParam` | a kind or length type parameter |
| `derivedType` | a derived type |

A symbol holds the symbol it is an alias of, so every chain of aliases ends.
-/

import FortranExpr.Characteristics
import FortranExpr.Expr.Basic
import FortranExpr.Scope

namespace FortranExpr

/-- An attribute of a declaration. -/
inductive Attr where
  | pointer
  | target
  | allocatable
  | contiguous
  | optional
  | intentIn
  | intentOut
  | intentInOut
  | save
  | parameter
  | pure
  | elemental
  | impure
deriving DecidableEq, Repr

/-- How the bounds of an array are given. -/
inductive ShapeKind where
  | explicit
  | assumedShape
  | deferredShape
  | assumedSize
  | assumedRank
deriving DecidableEq, Repr

/-- The two kinds of type parameters. -/
inductive TypeParamAttr where
  | kind
  | len
deriving DecidableEq, Repr

/-- What is declared of a data object. -/
structure ObjectDetails (σ : Type) where
  rank : Binary64
  corank : Binary64
  shape : ShapeKind
  isDummy : Bool
  commonBlock : Option String
  init : Option (Expr σ)

/-- What a symbol denotes. -/
inductive Details (σ : Type) where
  | object (declared : ObjectDetails σ)
  | procedure (isDummy : Bool) (characteristics : Option Characteristics)
  | use (target : σ)
  | hostAssoc (target : σ)
  | typeParam (attr : TypeParamAttr)
  | derivedType

/-- A named entity.  The serial number is its place among all declarations;
attributes stand in the order they were given, without repeats. -/
structure Symbol where
  serial : Nat
  name : String
  owner : Scope
  details : Details Symbol
  attrs : List Attr

namespace Details

variable {σ : Type}

/-- The declaration of a data object. -/
def object? : Details σ → Option (ObjectDetails σ)
  | object declared => some declared
  | _ => none

/-- A dummy argument. -/
def isDummy : Details σ → Bool
  | object declared => declared.isDummy
  | procedure isDummy _ => isDummy
  | _ => false

end Details

namespace Symbol

/-- The entity that a symbol finally denotes. -/
def ultimate : Symbol → Symbol
  | ⟨_, _, _, .use target, _⟩ => target.ultimate
  | ⟨_, _, _, .hostAssoc target, _⟩ => target.ultimate
  | s => s

/-- The declaration itself has an attribute. -/
def has (s : Symbol) (a : Attr) : Bool := s.attrs.contains a

/-- The rank of the object denoted; other entities have rank 0. -/
def rank (s : Symbol) : Binary64 :=
  match s.ultimate.details with
  | .object declared => declared.rank
  | _ => 0

/-- The corank of the object denoted; other entities have corank 0. -/
def corank (s : Symbol) : Binary64 :=
  match s.ultimate.details with
  | .object declared => declared.corank
  | _ => 0

/-- The declaration itself is a dummy argument. -/
def isDummy (s : Symbol) : Bool := s.details.isDummy

/-- A data object with the PARAMETER attribute. -/
def isNamedConstant (s : Symbol) : Bool :=
  s.ultimate.details.object?.isSome && s.ultimate.has .parameter

/-- The index of an implied-DO loop. -/
def isImpliedDoIndex (s : Symbol) : Bool := decide (s.owner.kind = .impliedDos)

/-- A kind type parameter. -/
def isKindParameter (s : Symbol) : Bool :=
  match s.ultimate.details with
  | .typeParam .kind => true
  | _ => false

/-- The entity denoted has the POINTER attribute. -/
def isPointer (s : Symbol) : Bool := s.ultimate.has .pointer

/-- The entity denoted has the ALLOCATABLE attribute. -/
def isAllocatable (s : Symbol) : Bool := s.ultimate.has .allocatable

/-- The storage persists: by SAVE or PARAMETER, or because an object that is no dummy
argument is initialized, or belongs to a module or a main program. -/
def isSaved (s : Symbol) : Bool :=
  let u := s.ultimate
  u.has .save || u.has .parameter ||
    match u.details with
    | .object declared =>
      !declared.isDummy &&
        (declared.init.isSome || decide (u.owner.kind = .module) ||
          decide (u.owner.kind = .mainProgram))
    | _ => false

/-- A procedure that is PURE or ELEMENTAL, and not IMPURE. -/
def isPureProcedure (s : Symbol) : Bool :=
  let u := s.ultimate
  match u.details with
  | .procedure _ _ => !u.has .impure && (u.has .pure || u.has .elemental)
  | _ => false

end Symbol

namespace Procedure

/-- What is known of a procedure. -/
def characteristics? (proc : Procedure Symbol) (table : IntrinsicTable) :
    Option Characteristics :=
  match proc with
  | .user s =>
    match s.ultimate.details with
    | .procedure _ characteristics => characteristics
    | _ => none
  | .intrinsic name => table.get? name

/-- The function result of a procedure, as far as it is known. -/
def result? (proc : Procedure Symbol) (table : IntrinsicTable) : Option FunctionResult :=
  (proc.characteristics? table).bind Characteristics.result

/-- The name of a procedure. -/
def name : Procedure Symbol → String
  | .user s => s.name
  | .intrinsic name => name

end Procedure
end FortranExpr
