/-
# Values that no message can quote

A message about an unknown word quotes whatever stands in the place of the word.  An object
with a member `toString` has no text, and neither has an array with such an item
(`Json.IsTextless`): then there is no message, and reading ends without a result.

| what is quoted | where it stands |
| --- | --- |
| an attribute | `$.symbols[i].attrs[j]` |
| a shape | `$.symbols[i].details.shape`, of a data object |
| a result attribute | `result.attrs[j]`, of a procedure or of an intrinsic procedure |
| a descriptor field | `field`, in an inquiry of any expression |

Nothing else keeps a text from being a fixture or being rejected with a message
(`ofText_unprintable_only_textless`), and at all of these places such a value does.
-/

import FortranExpr.Proofs.Fixture.Load

namespace FortranExpr
namespace Json

/-- A value without text: an object with a member `toString`, or an array that holds such a
value, however deep. -/
inductive IsTextless : Json → Prop
  | obj {written : List (String × Json)} {v : Json} : (Json.obj written).get? "toString" = some v →
      IsTextless (.obj written)
  | arr {items : List Json} {v : Json} : v ∈ items → v.IsTextless → IsTextless (.arr items)

mutual

/-- A value has no text exactly when it is textless. -/
theorem text?_eq_none_iff : ∀ v : Json, v.text? = none ↔ v.IsTextless
  | .null | .bool _ | .num _ | .str _ => ⟨nofun, nofun⟩
  | .arr items => by
    rw [text?, Option.map_eq_none_iff, itemTexts?_eq_none_iff]
    constructor
    · rintro ⟨v, hv, htextless⟩
      exact .arr hv htextless
    · rintro (_ | ⟨hv, htextless⟩)
      exact ⟨_, hv, htextless⟩
  | .obj written => by
    rw [text?]
    split
    · rename_i v hv
      exact ⟨fun _ => .obj hv, fun _ => rfl⟩
    · rename_i hnone
      refine ⟨nofun, ?_⟩
      rintro (hv | _)
      exact nomatch hnone.symm.trans hv

theorem itemTexts?_eq_none_iff :
    ∀ items : List Json, itemTexts? items = none ↔ ∃ v ∈ items, v.IsTextless
  | [] => ⟨nofun, nofun⟩
  | v :: rest => by
    have hrest := itemTexts?_eq_none_iff rest
    have hv := text?_eq_none_iff v
    rw [List.exists_mem_cons_iff, ← hrest, ← hv]
    cases v with
    | null => simp [itemTexts?, text?]
    | _ => cases htext : text? _ <;> simp [itemTexts?, htext]

end

end Json

open Json (IsTextless)

namespace Read

variable {α β : Type} {m : Read α} {k : α → Read β}

/-- A reading ends with neither a result nor a message. -/
def IsUnprintable (m : Read α) : Prop := m = .error .unprintable

instance decidableIsUnprintable : (m : Read α) → Decidable m.IsUnprintable
  | .ok _ => isFalse nofun
  | .error (.rejected _) => isFalse nofun
  | .error .unprintable => isTrue rfl

/-- A reading without a message has no result either. -/
theorem IsUnprintable.ne_ok (h : m.IsUnprintable) (a : α) : m ≠ .ok a := by
  rintro rfl
  cases h

/-- It is no rejection. -/
theorem IsUnprintable.ne_rejected (h : m.IsUnprintable) (r : Rejection) :
    m ≠ .error (.rejected r) := by
  rintro rfl
  cases h

/-- Nothing is read after it. -/
theorem IsUnprintable.bind (h : m.IsUnprintable) : (m >>= k).IsUnprintable := by
  rw [IsUnprintable] at h
  rw [h]
  rfl

/-- Nothing is made of it. -/
theorem IsUnprintable.map {f : α → β} (h : m.IsUnprintable) :
    IsUnprintable (Except.map f m) := by
  rw [IsUnprintable] at h
  rw [h]
  rfl

/-- It may come after readings with results. -/
theorem IsUnprintable.after {a : α} (h : (k a).IsUnprintable) (hm : m = .ok a) :
    (m >>= k).IsUnprintable := by
  rw [hm]
  exact h

end Read

/-- In the place of a word, a value without text ends the reading. -/
theorem Field.isUnprintable_wordOf {α : Type} [Vocabulary α] {v : Json} (h : v.IsTextless)
    (path : Path) : (wordOf (some v) path : Read α).IsUnprintable := by
  have hnone := (Json.text?_eq_none_iff v).2 h
  cases h with
  | obj | arr => simp only [wordOf, Read.unknownWord, hnone, Read.IsUnprintable]

/-- The kinds of places whose values are quoted. -/
inductive Quotation where
  | attribute
  | shape
  | symbolResult
  | intrinsicResult
  | descriptorField
deriving DecidableEq, Repr

namespace Quotation

/-- A document with one symbol. -/
def oneSymbol (members : List (String × Json)) : Json :=
  .obj [("symbols", .arr [.obj ([("name", .str "x"), ("scope", .str "global")] ++ members)])]

/-- A document that has a value in such a place. -/
def document (v : Json) : Quotation → Json
  | .attribute => oneSymbol [("attrs", .arr [v])]
  | .shape => oneSymbol [("details", .obj [("kind", .str "object"), ("shape", v)])]
  | .symbolResult => oneSymbol [("details", .obj [("kind", .str "procedure"),
      ("result", .obj [("attrs", .arr [v])])])]
  | .intrinsicResult => .obj [("intrinsics", .obj [("f", .obj [
      ("result", .obj [("attrs", .arr [v])])])])]
  | .descriptorField => .obj [
      ("symbols", .arr [.obj [("name", .str "x"), ("scope", .str "global"),
        ("details", .obj [("kind", .str "object")])]]),
      ("checks", .arr [.obj [("name", .str "c"), ("expr", .obj [
        ("node", .str "descriptorInquiry"),
        ("base", .obj [("node", .str "symbol"), ("symbol", .str "x")]), ("field", v)])]])]

/-- The members of one symbol are read after its name and its scope. -/
theorem isUnprintable_oneSymbol {members : List (String × Json)}
    (h : (Loaded.initial.readSymbol
      (.obj ([("name", .str "x"), ("scope", .str "global")] ++ members))
      ((Path.root.member "symbols").item 0)).IsUnprintable) (file : Option String) :
    (Fixture.ofJson file (oneSymbol members)).IsUnprintable := by
  have hsection : (Loaded.initial.readSection (oneSymbol members) "symbols"
      Loaded.readSymbol).IsUnprintable := .after (.bind h) rfl
  exact .after (.after (.bind hsection) rfl) rfl

/-- What the details of a symbol do, the document around them does. -/
theorem isUnprintable_details {details : List (String × Json)}
    (h : (Loaded.initial.readDetails (.obj details) (.details 0)).IsUnprintable)
    (file : Option String) :
    (Fixture.ofJson file (oneSymbol [("details", .obj details)])).IsUnprintable := by
  refine isUnprintable_oneSymbol ?_ file
  refine .after (.after (.after ?_ rfl) rfl) rfl
  rw [if_neg (by decide)]
  refine .after (.after (.after (.after (.after ?_ rfl) rfl) rfl) rfl) rfl
  exact .bind h

/-- A symbol that is there can be the base of an inquiry. -/
theorem dataRef_oneName {ids : SymbolIds} {record : Json} {key id : String} {s : Symbol}
    (hrecord : (record.child? key).map Subtype.val =
      some (.obj [("node", .str "symbol"), ("symbol", .str id)]))
    (hid : ids.get? id = some s) (path : Path) :
    Readers.dataRef (⟨fun w p => readExpr ids w.1 p, fun w p => readLoop ids w.1 p⟩ :
      Readers record) key path = .ok (.symbol s) := by
  obtain ⟨w, hw, hval⟩ := Option.map_eq_some_iff.1 hrecord
  have hread : readExpr ids w.1 (path.member key) = .ok (.entity (.symbol s)) := by
    rw [hval, readExpr]
    show Except.map _ (ids.resolve id _) = _
    rw [SymbolIds.resolve, hid]
    rfl
  rw [Readers.dataRef, Readers.required, hw]
  show (readExpr ids w.1 (path.member key) >>= _) = _
  rw [hread]
  rfl

variable {v : Json} (hv : v.IsTextless)
include hv

/-- A list that holds the value alone. -/
theorem isUnprintable_words {α : Type} [Vocabulary α] (path : Path) :
    (Read.items path (fun a p => (Field.wordOf (some a) p : Read α)) [v]).IsUnprintable :=
  .bind (Field.isUnprintable_wordOf hv _)

/-- The attributes of a result. -/
theorem isUnprintable_result {record : Json} (path : Path)
    (h : record.get? "result" = some (.obj [("attrs", .arr [v])])) :
    (Loaded.readCharacteristics record path).IsUnprintable := by
  unfold Loaded.readCharacteristics
  rw [h]
  refine .after (.after ?_ rfl) rfl
  exact .bind (isUnprintable_words hv _)

/-- The field of a read of a descriptor. -/
theorem isUnprintable_inquiry {ids : SymbolIds} {s : Symbol} (hid : ids.get? "x" = some s)
    (path : Path) :
    (readExpr ids (.obj [("node", .str "descriptorInquiry"),
      ("base", .obj [("node", .str "symbol"), ("symbol", .str "x")]), ("field", v)])
      path).IsUnprintable := by
  have hword := Field.isUnprintable_wordOf (α := DescriptorField) hv (path.member "field")
  rw [readExpr]
  refine .after (.after ?_ rfl) rfl
  exact .after (.bind hword) (dataRef_oneName rfl hid _)

/-- **A value without text ends the reading** of every such document. -/
theorem isUnprintable_document (q : Quotation) (file : Option String) :
    (Fixture.ofJson file (q.document v)).IsUnprintable := by
  -- every step before the quoted value can be read (`after`), and none after it counts (`bind`)
  cases q with
  | «attribute» =>
    refine isUnprintable_oneSymbol ?_ file
    refine .after (.after (.after ?_ rfl) rfl) rfl
    -- no symbol has the id yet
    rw [if_neg (by decide)]
    refine .after (.after (.after ?_ rfl) rfl) rfl
    exact .bind (isUnprintable_words hv _)
  | shape =>
    have hword := Field.isUnprintable_wordOf (α := ShapeKind) hv
      ((Path.details 0).member "shape")
    refine isUnprintable_details (.after ?_ rfl) file
    refine .map (.after (.after ?_ rfl) rfl)
    -- the shape is there and not `null`
    cases hv with
    | obj | arr => exact .bind hword
  | symbolResult =>
    refine isUnprintable_details (.after ?_ rfl) file
    refine .after ?_ rfl
    exact .bind (isUnprintable_result hv _ rfl)
  | intrinsicResult =>
    -- the scopes and the symbols are read
    refine .after (.after (.after (.bind ?_) rfl) rfl) rfl
    have hmembers : Json.members (.obj [("f", .obj [("result", .obj [("attrs", .arr [v])])])]) =
        [("f", .obj [("result", .obj [("attrs", .arr [v])])])] :=
      Json.members_obj (List.pairwise_singleton _ _)
        (List.forall_mem_singleton.2 (by decide : Json.arrayIndex? "f" = none))
    refine .after (.bind ?_) rfl
    rw [hmembers, List.mapM_cons]
    refine .bind (.after ?_ rfl)
    exact .bind (isUnprintable_result hv _ rfl)
  | descriptorField =>
    -- the sections before the checks are read, and the check up to its expression
    refine .after (.after (.after (.after (.bind ?_) rfl) rfl) rfl) rfl
    refine .after (.bind ?_) rfl
    refine .after (.after (.after (.after ?_ rfl) rfl) rfl) rfl
    exact .bind (isUnprintable_inquiry hv rfl _)

end Quotation

namespace Fixture

/-- A text is a fixture, or it is rejected with a message, or a value without text stands where
a value is quoted. -/
theorem ofText_cases (file : Option String) (text : String) :
    (∃ f, ofText file text = .ok f) ∨ (∃ r, ofText file text = .error (.rejected r)) ∨
      (ofText file text).IsUnprintable ∧ ∃ (document : Json) (path : Path) (v : Json),
        Json.parse text = .ok document ∧ path.IsQuoted document ∧
          path.resolve? document = some v ∧ v.IsTextless := by
  cases hread : ofText file text with
  | ok f => exact .inl ⟨f, rfl⟩
  | error failure =>
    cases failure with
    | rejected r => exact .inr (.inl ⟨r, rfl⟩)
    | unprintable =>
      refine .inr (.inr ⟨rfl, ?_⟩)
      unfold ofText at hread
      split at hread
      · rename_i document hparse
        have hcause := (ofJson_meets file document).of_eq_error hread
        cases hcause with
        | @unprintable path v hquoted hplace hnone =>
          exact ⟨document, path, v, hparse, hquoted, hplace, (Json.text?_eq_none_iff v).1 hnone⟩
      · cases hread

/-- **Only a value without text** keeps a text from being either a fixture or rejected with a
message, and at every kind of place where values are quoted it does. -/
theorem ofText_unprintable_only_textless (file : Option String) :
    (∀ text, (∃ f, ofText file text = .ok f) ∨ (∃ r, ofText file text = .error (.rejected r)) ∨
      (ofText file text).IsUnprintable ∧ ∃ (document : Json) (path : Path) (v : Json),
        Json.parse text = .ok document ∧ path.IsQuoted document ∧
          path.resolve? document = some v ∧ v.IsTextless) ∧
    ∀ v, v.IsTextless → ∀ q : Quotation, (ofJson file (q.document v)).IsUnprintable :=
  ⟨ofText_cases file, fun _ hv q => q.isUnprintable_document hv file⟩

/-- One symbol, whose attribute is an object with a member `toString`. -/
def textlessAttribute : String :=
  "\x7b\"symbols\":[\x7b\"name\":\"v\",\"scope\":\"global\"," ++
    "\"attrs\":[\x7b\"toString\":1\x7d],\"details\":\x7b\"kind\":\"object\"\x7d\x7d]\x7d"

/-- This text is no fixture, and it is not rejected with a message. -/
theorem ofText_textlessAttribute :
    (∀ f, ofText none textlessAttribute ≠ .ok f) ∧
      ∀ r, ofText none textlessAttribute ≠ .error (.rejected r) := by
  have hread : (ofText none textlessAttribute).IsUnprintable := by decide +kernel
  exact ⟨hread.ne_ok, hread.ne_rejected⟩

end Fixture
end FortranExpr
