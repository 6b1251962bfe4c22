/-
# Loading a fixture

A fixture describes scopes, symbols, intrinsic procedures and checks, in this order.
Every reference is to an entry that stands earlier in the document; the scope
`global` is there from the start.

| section | entry |
| --- | --- |
| `scopes` | `id`, `kind`, `parent` |
| `symbols` | `name`, `id`, `scope`, `attrs`, `details` |
| `intrinsics` | a name, and the characteristics of its procedure |
| `checks` | `name`, `scope`, `expr`, `at` |

A text is read as a document under one restriction: surrogates that stand alone are not told
apart, so two ids that differ only in such halves of a pair are one id here (`Json.parse`).
-/

import FortranExpr.Declarations
import FortranExpr.Fixture.Expression
import FortranExpr.Json.Parser
import FortranExpr.Report

namespace FortranExpr

/-- The scopes and symbols read so far. -/
structure Loaded where
  declarations : Declarations
  scopes : OrderedMap String Scope
  symbols : SymbolIds

/-- What a document describes. -/
structure Fixture where
  loaded : Loaded
  intrinsics : IntrinsicTable
  checks : List Check

namespace Loaded

/-- The global scope alone. -/
def initial : Loaded :=
  ⟨.empty, (∅ : OrderedMap String Scope).insert "global" .global, ∅⟩

/-- The scope of an id. -/
def scope (l : Loaded) (id : String) (path : Path) : Read Scope :=
  match l.scopes.get? id with
  | some s => .ok s
  | none => .reject (.unknownReference .scope id) path

/-- Reads a scope and adds it. -/
def readScope (l : Loaded) (item : Json) (path : Path) : Read Loaded := do
  let record ← Field.object (some item) path
  let id ← Field.string record "id" path
  if l.scopes.contains id then .reject (.duplicate .scope id) (path.member "id")
  else
    let kind ← Field.word record "kind" path
    let parentId ← Field.idOr "global" record "parent" path
    let parent ← l.scope parentId (path.member "parent")
    let (scope, declarations) := l.declarations.makeChild parent kind id
    return { l with declarations, scopes := l.scopes.insert id scope }

/-- The characteristics of a procedure: a function has a `result`. -/
def readCharacteristics (record : Json) (path : Path) : Read Characteristics :=
  match record.get? "result" with
  | none => .ok ⟨none⟩
  | some v => do
    let path := path.member "result"
    let result ← Field.object (some v) path
    let names ← Field.array result "attrs" path
    let attrs ← Read.items (path.member "attrs") (fun a p => Field.wordOf (some a) p) names
    let procedurePointer ← Field.flag result "procedurePointer" path
    return ⟨some (.ofAttrs attrs procedurePointer)⟩

/-- The declaration of a data object. -/
def readObject (l : Loaded) (record : Json) (path : Path) : Read (ObjectDetails Symbol) := do
  let rank ← Field.count 0 record "rank" path
  let corank ← Field.count 0 record "corank" path
  let shape ← match record.get? "shape" with
    | none | some .null => Except.ok ShapeKind.explicit
    | v => Field.wordOf v (path.member "shape")
  let isDummy ← Field.flag record "dummy" path
  let commonBlock ← match record.get? "common" with
    | none => Except.ok none
    | some (.str name) => .ok (some name)
    | some _ => Read.expected .string (path.member "common")
  let init ← match record.get? "init" with
    | none => Except.ok none
    | some v => (readExpr l.symbols v (path.member "init")).map some
  return { rank, corank, shape, isDummy, commonBlock, init }

/-- What a symbol denotes. -/
def readDetails (l : Loaded) (record : Json) (path : Path) : Read (Details Symbol) := do
  let kind : DetailsKind ← Field.word record "kind" path
  match kind with
  | .object => (l.readObject record path).map .object
  | .procedure =>
    let isDummy ← Field.flag record "dummy" path
    let characteristics ← readCharacteristics record path
    return .procedure isDummy (some characteristics)
  | .use => (l.symbols.field record "symbol" path).map .use
  | .hostAssoc => (l.symbols.field record "symbol" path).map .hostAssoc
  | .typeParam =>
    match record.get? "attr" with
    | some (.str "kind") => return .typeParam .kind
    | some (.str "len") => return .typeParam .len
    | _ => .expected .typeParamKind (path.member "attr")
  | .derivedType => return .derivedType

/-- Reads a symbol and declares it. -/
def readSymbol (l : Loaded) (item : Json) (path : Path) : Read Loaded := do
  let record ← Field.object (some item) path
  let name ← Field.string record "name" path
  let id ← Field.idOr name record "id" path
  if l.symbols.contains id then .reject (.duplicate .symbol id) path
  else
    let scopeId ← Field.string record "scope" path
    let scope ← l.scope scopeId (path.member "scope")
    let names ← Field.array record "attrs" path
    let attrs ← Read.items (path.member "attrs") (fun a p => Field.wordOf (some a) p) names
    let details ← Field.object (record.get? "details") (path.member "details")
    let details ← l.readDetails details (path.member "details")
    let (symbol, declarations) := l.declarations.declare scope name details attrs
    return { l with declarations, symbols := l.symbols.insert id symbol }

/-- Reads the items of a section one after another, `index` of them being read
already. -/
def readFrom (path : Path) (read : Loaded → Json → Path → Read Loaded) (index : Nat) :
    Loaded → List Json → Read Loaded
  | l, [] => .ok l
  | l, item :: rest => do
    let next ← read l item (path.item index)
    readFrom path read (index + 1) next rest

/-- Reads the section of a key. -/
def readSection (l : Loaded) (document : Json) (key : String)
    (read : Loaded → Json → Path → Read Loaded) : Read Loaded := do
  let items ← Field.array document key .root
  readFrom (Path.root.member key) read 0 l items

/-- Reads the place of a check. -/
def readLocation (file : Option String) (value : Json) (path : Path) : Read Span := do
  let record ← Field.object (some value) path
  let line ← Field.count 1 record "line" path
  let column ← Field.count 1 record "column" path
  return ⟨⟨file, line, column⟩, ⟨file, line, column⟩⟩

/-- Reads a check. -/
def readCheck (l : Loaded) (file : Option String) (item : Json) (path : Path) : Read Check := do
  let record ← Field.object (some item) path
  let name ← Field.string record "name" path
  let scopeId ← Field.idOr "global" record "scope" path
  let scope ← l.scope scopeId (path.member "scope")
  let expr ← match record.get? "expr" with
    | some v => readExpr l.symbols v (path.member "expr")
    | none => Read.expected .object (path.member "expr")
  let at? ← match record.get? "at" with
    | none => Except.ok none
    | some v => (readLocation file v (path.member "at")).map some
  return { name, scope, expr, at? }

/-- Reads the checks. -/
def readChecks (l : Loaded) (file : Option String) (document : Json) : Read (List Check) := do
  let items ← Field.array document "checks" .root
  Read.items (Path.root.member "checks") (l.readCheck file) items

end Loaded

namespace Fixture

/-- Reads the table of intrinsic procedures. -/
def readIntrinsics (document : Json) : Read IntrinsicTable :=
  let path := Path.root.member "intrinsics"
  match document.get? "intrinsics" with
  | none => .ok ∅
  | some v => do
    let table ← Field.object (some v) path
    let entries ← table.members.mapM fun (name, entry) => do
      let record ← Field.object (some entry) (path.member name)
      let characteristics ← Loaded.readCharacteristics record (path.member name)
      return (name, characteristics)
    return .ofList entries

/-- Reads a fixture; `file` is the name of the file that its checks are in. -/
def ofJson (file : Option String) (document : Json) : Read Fixture := do
  let _ ← Field.object (some document) .root
  let l ← Loaded.initial.readSection document "scopes" Loaded.readScope
  let l ← l.readSection document "symbols" Loaded.readSymbol
  let intrinsics ← readIntrinsics document
  let checks ← l.readChecks file document
  return ⟨l, intrinsics, checks⟩

/-- Reads a fixture from text, whose strings have their surrogates in pairs. -/
def ofText (file : Option String) (text : String) : Read Fixture :=
  match Json.parse text with
  | .ok document => ofJson file document
  | .error e => .reject (.notJson e) .root

/-- Runs the selected predicates on every check. -/
def run (f : Fixture) (selection : Selection) : List Report :=
  f.checks.map fun c => c.run f.intrinsics selection

end Fixture
end FortranExpr
