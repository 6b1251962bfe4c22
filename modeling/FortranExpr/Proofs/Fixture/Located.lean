/-
# Rejections name a place

A rejection comes with a kind, a message and a path, and the path leads through the document
that was rejected.  Written out it is `$`, and then one `.key` or `[index]` for each step
(`Path.text_eq`).

| kind | at the path |
| --- | --- |
| `missingField` | a record, and the field that the message quotes is not in it |
| `duplicateId` | a value |
| `unknownReference` | the id that the message quotes, or the value that stands under that id |
| `invalidValue` | a value, or a record just above that has no member of the last key |
| `invalidJson` | nothing: what is rejected here has been read as JSON |

What is said of a kind goes by the message as the user sees it (`ErrorKind.HoldsAt`); which
kind and message a problem has is said apart from that (`Problem.isTold_iff`).  A text that is
not even JSON is the one case of `invalidJson` (`kind_of_ofText`).
-/

import FortranExpr.Proofs.Fixture.Load

namespace FortranExpr

/-- One step into a value. -/
inductive Step where
  | key (name : String)
  | index (i : Nat)
deriving DecidableEq, Repr

namespace Step

/-- A step as text. -/
def text : Step → String
  | key name => "." ++ name
  | index i => "[" ++ i.repr ++ "]"

/-- The value that a step leads to. -/
def into? (v : Json) : Step → Option Json
  | key name => v.get? name
  | index i =>
    match v with
    | .arr items => items[i]?
    | _ => none

end Step

namespace Json

/-- The value that one step after another leads to. -/
def along? (v : Json) : List Step → Option Json
  | [] => some v
  | step :: rest => (step.into? v).bind fun w => w.along? rest

/-- A way of one step. -/
@[simp] theorem along?_singleton (v : Json) (step : Step) : v.along? [step] = step.into? v :=
  Option.bind_fun_some _

/-- A way in two parts. -/
theorem along?_append (v : Json) (first rest : List Step) :
    v.along? (first ++ rest) = (v.along? first).bind fun w => w.along? rest := by
  induction first generalizing v with
  | nil => rfl
  | cons step first ih =>
    rw [List.cons_append, along?, along?, Option.bind_assoc]
    exact congrArg _ (funext ih)

/-- Every part of a way that leads to a value leads to a value. -/
theorem along?_take_isSome {v w : Json} {steps : List Step} (h : v.along? steps = some w)
    (n : Nat) : (v.along? (steps.take n)).isSome := by
  rw [← List.take_append_drop n steps, along?_append] at h
  obtain ⟨u, hu, _⟩ := Option.bind_eq_some_iff.1 h
  exact Option.isSome_iff_exists.2 ⟨u, hu⟩

end Json

namespace Path

/-- The steps of a path, from the document on. -/
def steps : Path → List Step
  | root => []
  | member parent name => parent.steps ++ [.key name]
  | item parent index => parent.steps ++ [.index index]

/-- A path leads where its steps lead. -/
theorem along?_steps (document : Json) (path : Path) :
    document.along? path.steps = path.resolve? document := by
  induction path with
  | root => rfl
  | member parent name ih | item parent index ih =>
    simp only [steps, Json.along?_append, ih, resolve?, Json.along?_singleton]
    rfl

/-- **A path is written** one step after the other. -/
theorem text_eq (path : Path) : path.text = "$" ++ String.join (path.steps.map Step.text) := by
  induction path with
  | root => rfl
  | member parent name ih | item parent index ih =>
    rw [text, ih, steps]
    simp [Step.text, String.append_assoc]

end Path

/-! ### What an error says -/

/-- `p.IsTold kind message`: a user is told of the problem `p` by an error of this kind with
this message. -/
inductive Problem.IsTold : Problem → ErrorKind → String → Prop
  | notJson (error : Json.SyntaxError) : IsTold (.notJson error) .invalidJson error.message
  | missing (field : String) :
      IsTold (.missing field) .missingField ("missing field '" ++ field ++ "'")
  | expected (what : Expectation) :
      IsTold (.expected what) .invalidValue ("expected " ++ what.text)
  | unknownWord (topic text : String) :
      IsTold (.unknownWord topic text) .invalidValue ("unknown " ++ topic ++ " '" ++ text ++ "'")
  | unknownScope (id : String) :
      IsTold (.unknownReference .scope id) .unknownReference ("unknown scope '" ++ id ++ "'")
  | unknownSymbol (id : String) :
      IsTold (.unknownReference .symbol id) .unknownReference ("unknown symbol '" ++ id ++ "'")
  | duplicateScope (id : String) :
      IsTold (.duplicate .scope id) .duplicateId ("duplicate scope id '" ++ id ++ "'")
  | duplicateSymbol (id : String) :
      IsTold (.duplicate .symbol id) .duplicateId ("duplicate symbol id '" ++ id ++ "'")

/-- **The kind and the message of every problem.** -/
theorem Problem.isTold_iff {p : Problem} {kind : ErrorKind} {message : String} :
    p.IsTold kind message ↔ p.kind = kind ∧ p.message = message := by
  constructor
  · intro h
    cases h <;> exact ⟨rfl, rfl⟩
  · rintro ⟨rfl, rfl⟩
    cases p with
    | notJson error => exact .notJson error
    | missing field => exact .missing field
    | expected what => exact .expected what
    | unknownWord topic text => exact .unknownWord topic text
    | unknownReference entity id =>
      cases entity with
      | scope => exact .unknownScope id
      | symbol => exact .unknownSymbol id
    | duplicate entity id =>
      cases entity with
      | scope => exact .duplicateScope id
      | symbol => exact .duplicateSymbol id

/-- What an error of some kind says with its message is so at the end of a way through the
document: the field it quotes is missing there, or the id it quotes stands there. -/
def ErrorKind.HoldsAt (document : Json) (way : List Step) (message : String) : ErrorKind → Prop
  | missingField => ∃ field record, message = "missing field '" ++ field ++ "'" ∧
      document.along? way = some record ∧ record.isObject = true ∧ record.get? field = none
  | duplicateId => (document.along? way).isSome
  | unknownReference => ∃ id,
      (message = "unknown scope '" ++ id ++ "'" ∨ message = "unknown symbol '" ++ id ++ "'") ∧
      (document.along? way = some (.str id) ∨
        (document.along? way).isSome ∧ ∃ above, way = above ++ [.key id])
  | invalidValue => True
  | invalidJson => False

/-- The message about an unknown reference is one about a scope or one about a symbol. -/
theorem Entity.unknown_message (entity : Entity) (id : String) :
    (Problem.unknownReference entity id).message = "unknown scope '" ++ id ++ "'" ∨
      (Problem.unknownReference entity id).message = "unknown symbol '" ++ id ++ "'" := by
  cases entity with
  | scope => exact .inl rfl
  | symbol => exact .inr rfl

/-- A rejection points to where its problem is in the document. -/
structure Rejection.IsLocated (document : Json) (r : Rejection) : Prop where
  /-- The path is written step by step. -/
  rendered : r.path.text = "$" ++ String.join (r.path.steps.map Step.text)
  /-- All steps but the last lead from value to value. -/
  above : ∀ n < r.path.steps.length, (document.along? (r.path.steps.take n)).isSome
  /-- The last step leads to a value too, or it names a member that a record lacks. -/
  last : (document.along? r.path.steps).isSome ∨
    ∃ above name record, r.path.steps = above ++ [.key name] ∧
      document.along? above = some record ∧ record.isObject = true ∧ record.get? name = none
  /-- What the kind and the message say is so at the end of the path. -/
  holds : r.kind.HoldsAt document r.path.steps r.message

variable {document : Json} {path : Path}

/-- A path that leads to a value is a way to one. -/
theorem Path.along?_isSome {v : Json} (h : path.resolve? document = some v) :
    (document.along? path.steps).isSome :=
  Option.isSome_iff_exists.2 ⟨v, (path.along?_steps document).trans h⟩

namespace Rejection

/-- A path that leads to a value, or up to a member that a record lacks, is enough for the
place of a rejection; what is said of that place is up to its kind. -/
theorem isLocated_of_reaches (h : path.Reaches document) {problem : Problem}
    (hholds : problem.kind.HoldsAt document path.steps problem.message) :
    IsLocated document ⟨problem, path⟩ := by
  refine ⟨path.text_eq, ?_, ?_, hholds⟩
  · intro n hn
    cases h with
    | value h => exact Json.along?_take_isSome ((path.along?_steps document).trans h) n
    | @absent parent record name h _ =>
      have hlength : (parent.member name).steps.length = parent.steps.length + 1 :=
        List.length_append
      have hle : n ≤ parent.steps.length := Nat.le_of_lt_succ (Nat.lt_of_lt_of_eq hn hlength)
      show (document.along? ((parent.steps ++ [Step.key name]).take n)).isSome
      rw [List.take_append_of_le_length hle]
      exact Json.along?_take_isSome ((parent.along?_steps document).trans h.resolve) n
  · cases h with
    | value h => exact .inl (path.along?_isSome h)
    | @absent parent record name h hnone =>
      exact .inr ⟨parent.steps, name, record, rfl,
        (parent.along?_steps document).trans h.resolve, h.isObject, hnone⟩

/-- **What has a cause in the document is located there.** -/
theorem isLocated_of_hasCause {r : Rejection}
    (h : Failure.HasCause document (.rejected r)) : r.IsLocated document := by
  cases h with
  | @missing path record field h hnone =>
    exact isLocated_of_reaches (.value h.resolve)
      ⟨field, record, rfl, (path.along?_steps document).trans h.resolve, h.isObject, hnone⟩
  | expected h | unknownWord h => exact isLocated_of_reaches h trivial
  | @unknownId path entity id h =>
    exact isLocated_of_reaches (.value h)
      ⟨id, entity.unknown_message id, .inl ((path.along?_steps document).trans h)⟩
  | @unknownKey path record v entity id h hget =>
    have hmember := (Path.resolve?_member h.resolve id).trans hget
    exact isLocated_of_reaches (.value hmember)
      ⟨id, entity.unknown_message id, .inr ⟨Path.along?_isSome hmember, path.steps, rfl⟩⟩
  | duplicate h => exact isLocated_of_reaches (.value h) (Path.along?_isSome h)

/-- A document is never rejected as no JSON. -/
theorem IsLocated.kind_ne {r : Rejection} (h : r.IsLocated document) : r.kind ≠ .invalidJson := by
  intro hkind
  have hholds := h.holds
  rw [hkind] at hholds
  exact hholds

end Rejection

namespace Fixture

/-- **What a text is rejected for:** that it is no JSON, and then as a whole, or something that
is located in the document that it spells. -/
theorem kind_of_ofText {file : Option String} {text : String} {r : Rejection}
    (h : ofText file text = .error (.rejected r)) :
    (r.kind = .invalidJson ∧ r.path = .root ∧
      ∃ e, Json.parse text = .error e ∧ r.message = e.message) ∨
    r.kind ≠ .invalidJson ∧ ∃ document, Json.parse text = .ok document ∧ r.IsLocated document := by
  unfold ofText at h
  split at h
  · rename_i document hparse
    have hlocated := Rejection.isLocated_of_hasCause ((ofJson_meets file document).of_eq_error h)
    exact .inr ⟨hlocated.kind_ne, document, hparse, hlocated⟩
  · rename_i e hparse
    cases h
    exact .inl ⟨rfl, rfl, e, hparse, rfl⟩

/-- **Every rejection of a document is located in it.**  Its kind and message are those of its
problem, its path leads through the document to the place of the problem, and what the message
quotes is found to be missing or unknown at that place. -/
theorem isLocated_of_ofJson {file : Option String} {document : Json} {r : Rejection}
    (h : ofJson file document = .error (.rejected r)) :
    r.problem.IsTold r.kind r.message ∧ r.IsLocated document :=
  ⟨Problem.isTold_iff.2 ⟨rfl, rfl⟩,
    Rejection.isLocated_of_hasCause ((ofJson_meets file document).of_eq_error h)⟩

/-- An array element is asked for, deep in the bounds of a section, at an index that is
declared nowhere. -/
def undeclaredIndex : Json :=
  .obj [
    ("symbols", .arr [
      .obj [("name", .str "a"), ("scope", .str "global"),
        ("details", .obj [("kind", .str "object")])]]),
    ("checks", .arr [
      .obj [("name", .str "c"), ("expr", .obj [
        ("node", .str "arrayRef"),
        ("base", .obj [("node", .str "symbol"), ("symbol", .str "a")]),
        ("subscripts", .arr [.obj [("triplet", .arr [.null, .obj [
          ("node", .str "parens"),
          ("operand", .obj [("node", .str "symbol"), ("symbol", .str "i")])]])]])])]])]

/-- The rejection of that document, and the nine steps to its place. -/
theorem undeclaredIndex_isLocated :
    ∃ r, ofJson none undeclaredIndex = .error (.rejected r) ∧
      r.kind = .unknownReference ∧ r.message = "unknown symbol 'i'" ∧
      r.path.text = "$.checks[0].expr.subscripts[0].triplet[1].operand.symbol" ∧
      r.problem.IsTold r.kind r.message ∧ r.IsLocated undeclaredIndex := by
  have hread : ofJson none undeclaredIndex = .error (.rejected ⟨.unknownReference .symbol "i",
      ((((((((Path.root.member "checks").item 0).member "expr").member "subscripts").item
        0).member "triplet").item 1).member "operand").member "symbol"⟩) := by
    cbv
  exact ⟨_, hread, rfl, rfl, rfl, isLocated_of_ofJson hread⟩

end Fixture
end FortranExpr
