/-
# Why a document is no fixture, and where

Every failure has a cause that is found in the document, at the path that the failure names.

| failure | what is found |
| --- | --- |
| a missing field | a record without the field |
| something else expected, an unknown word | a value, or a record without the last member of the path |
| an unknown reference | the id itself, or a record with a member of that name |
| a duplicate id | a value |
| no message | a value without text, where an unknown word is quoted |
| not JSON | nothing: only a text can fail so |
-/

import FortranExpr.Fixture.Field
import FortranExpr.Fixture.Expression
import FortranExpr.Proofs.Fixture.Reading
import FortranExpr.Proofs.Json.Member

namespace FortranExpr

variable {document record : Json} {path parent : Path}

namespace Path

/-- The path leads to an object. -/
structure IsRecord (path : Path) (document record : Json) : Prop where
  resolve : path.resolve? document = some record
  isObject : record.isObject = true

/-- The path leads to a value, or its last step names a member that a record lacks. -/
inductive Reaches (document : Json) : Path → Prop
  | value {path : Path} {v : Json} : path.resolve? document = some v → Reaches document path
  | absent {parent : Path} {record : Json} {name : String} : parent.IsRecord document record →
      record.get? name = none → Reaches document (parent.member name)

/-- One step further by a key. -/
theorem resolve?_member {v : Json} (h : path.resolve? document = some v) (name : String) :
    (path.member name).resolve? document = v.get? name := by
  rw [resolve?, h, Option.bind_some]

/-- One step further by an index. -/
theorem resolve?_item {items : List Json} (h : path.resolve? document = some (.arr items))
    (index : Nat) : (path.item index).resolve? document = items[index]? := by
  rw [resolve?, h, Option.bind_some]

/-- A member of a record is there or absent, and either is enough for a place. -/
theorem IsRecord.reaches_member (h : path.IsRecord document record) (name : String) :
    (path.member name).Reaches document := by
  cases hv : record.get? name with
  | none => exact .absent h hv
  | some v => exact .value ((resolve?_member h.resolve name).trans hv)

/-- The place of the details of a symbol. -/
def details (i : Nat) : Path := ((root.member "symbols").item i).member "details"

/-- An unknown word at this place is quoted in the message about it, whatever it is. -/
inductive IsQuoted (document : Json) : Path → Prop
  | attribute (i j : Nat) :
      IsQuoted document ((((root.member "symbols").item i).member "attrs").item j)
  | shape {i : Nat} {record : Json} : (details i).IsRecord document record →
      record.get? "kind" = some (.str "object") → IsQuoted document ((details i).member "shape")
  | symbolResult {i : Nat} {record : Json} (j : Nat) : (details i).IsRecord document record →
      record.get? "kind" = some (.str "procedure") →
      IsQuoted document ((((details i).member "result").member "attrs").item j)
  | intrinsicResult (name : String) (j : Nat) : IsQuoted document (((((root.member
      "intrinsics").member name).member "result").member "attrs").item j)
  | descriptorField {path : Path} {record : Json} : path.IsRecord document record →
      record.get? "node" = some (.str "descriptorInquiry") →
      IsQuoted document (path.member "field")

end Path

/-- What is found in a document for which reading fails. -/
inductive Failure.HasCause (document : Json) : Failure → Prop
  | missing {path : Path} {record : Json} {field : String} : path.IsRecord document record →
      record.get? field = none → HasCause document (.rejected ⟨.missing field, path⟩)
  | expected {path : Path} {what : Expectation} : path.Reaches document →
      HasCause document (.rejected ⟨.expected what, path⟩)
  | unknownWord {path : Path} {topic text : String} : path.Reaches document →
      HasCause document (.rejected ⟨.unknownWord topic text, path⟩)
  | unknownId {path : Path} {entity : Entity} {id : String} :
      path.resolve? document = some (.str id) →
      HasCause document (.rejected ⟨.unknownReference entity id, path⟩)
  | unknownKey {path : Path} {record v : Json} {entity : Entity} {id : String} :
      path.IsRecord document record → record.get? id = some v →
      HasCause document (.rejected ⟨.unknownReference entity id, path.member id⟩)
  | duplicate {path : Path} {v : Json} {entity : Entity} {id : String} :
      path.resolve? document = some v →
      HasCause document (.rejected ⟨.duplicate entity id, path⟩)
  | unprintable {path : Path} {v : Json} : path.IsQuoted document →
      path.resolve? document = some v → v.text? = none → HasCause document .unprintable

/-- The value that a word of a vocabulary stands for is written with that word. -/
theorem Vocabulary.word_of_ofWord? {α : Type} [Vocabulary α] {text : String} {a : α}
    (h : Vocabulary.ofWord? text = some a) : Vocabulary.word a = text :=
  beq_iff_eq.1 (List.find?_some (p := fun a => Vocabulary.word a == text) h)

namespace Json

/-- The items of an array field; none when the field is absent. -/
def listed (record : Json) (key : String) : List Json :=
  match record.get? key with
  | some (.arr items) => items
  | _ => []

end Json

open Failure (HasCause)

namespace Field

/-- What is not an object is refused where it stands, also when nothing stands there. -/
theorem object_meets {value : Option Json} (hv : path.resolve? document = value)
    (hr : path.Reaches document) :
    (object value path).Meets (fun v => path.IsRecord document v) (HasCause document) := by
  unfold object
  split
  · rename_i v
    split
    · rename_i hobject
      exact ⟨hv, hobject⟩
    · exact .expected hr
  · exact .expected hr

/-- An array that was read is the one in the field. -/
theorem eq_listed_of_array_eq_ok {key : String} {items : List Json}
    (h : array record key path = .ok items) : items = record.listed key := by
  unfold array at h
  unfold Json.listed
  split at h <;> rename_i hv <;> rw [hv] <;> cases h <;> rfl

variable (h : path.IsRecord document record) (key : String)
include h

/-- A string that is missing is the one failure told at the record, and not at the field. -/
theorem string_meets :
    (string record key path).Meets (fun s => record.get? key = some (.str s))
      (HasCause document) := by
  unfold string
  split
  · exact .missing h ‹_›
  · exact ‹_›
  · exact .expected (h.reaches_member key)

/-- A default stands for a field that is absent or `null`. -/
theorem idOr_meets (fallback : String) :
    (idOr fallback record key path).Meets
      (fun s => record.get? key = some (.str s) ∨
        s = fallback ∧ (record.get? key = none ∨ record.get? key = some .null))
      (HasCause document) := by
  unfold idOr
  split
  · exact .inr ⟨rfl, .inl ‹_›⟩
  · exact .inr ⟨rfl, .inr ‹_›⟩
  · exact .inl ‹_›
  · exact .expected (h.reaches_member key)

/-- A number that is no count is refused at the field. -/
theorem count_meets (fallback : Binary64) :
    (count fallback record key path).Meets (fun _ => True) (HasCause document) := by
  unfold count
  split
  · trivial
  · split
    · trivial
    · exact .expected (h.reaches_member key)
  · exact .expected (h.reaches_member key)

/-- What is no boolean is refused at the field. -/
theorem flag_meets :
    (flag record key path).Meets (fun _ => True) (HasCause document) := by
  unfold flag
  split
  · trivial
  · trivial
  · exact .expected (h.reaches_member key)

/-- What is no array is refused at the field. -/
theorem array_meets :
    (array record key path).Meets (fun items => items = record.listed key)
      (HasCause document) := by
  unfold array Json.listed
  split <;> rename_i hv
  · rw [hv]; rfl
  · rw [hv]; rfl
  · exact .expected (h.reaches_member key)

/-- An item of an array field is found in the document. -/
theorem getElem?_listed {i : Nat} {v : Json} (hv : (record.listed key)[i]? = some v) :
    ((path.member key).item i).resolve? document = some v := by
  have hlist := Path.resolve?_member h.resolve key
  unfold Json.listed at hv
  split at hv
  · rename_i items hitems
    exact (Path.resolve?_item (hlist.trans hitems) i).trans hv
  · cases hv

/-- The items with the proofs that they are smaller are found in the document too. -/
theorem arrayBelow_meets :
    (arrayBelow record key path).Meets
      (fun items => ∀ i w, items[i]? = some w →
        ((path.member key).item i).resolve? document = some w.1)
      (HasCause document) := by
  unfold arrayBelow
  split
  · exact nofun
  · rename_i w hw
    have hget : record.get? key = some w.1 := by rw [← Json.map_child?, hw]; rfl
    split
    · rename_i items hitems
      intro i u hu
      have harr := Json.Below.val_of_items? hitems
      have hlist := (Path.resolve?_member h.resolve key).trans (harr ▸ hget)
      rw [Path.resolve?_item hlist, List.getElem?_map, hu]
      rfl
    · exact .expected (h.reaches_member key)

section Words

variable {α : Type} [Vocabulary α]

/-- A word that is read is the text in the document. -/
theorem word_meets :
    (word record key path : Read α).Meets
      (fun a => record.get? key = some (.str (Vocabulary.word a))) (HasCause document) := by
  refine (string_meets h key).bind fun text htext => ?_
  split
  · rename_i a ha
    exact Read.meets_pure (Vocabulary.word_of_ofWord? ha ▸ htext)
  · exact .unknownWord (h.reaches_member key)

omit h in
/-- What is no word is quoted in the message, and has no message where it has no text. -/
theorem wordOf_meets {value : Option Json} (hv : path.resolve? document = value)
    (hr : path.Reaches document) (hq : path.IsQuoted document) :
    (wordOf value path : Read α).Meets
      (fun a => value = some (.str (Vocabulary.word a))) (HasCause document) := by
  unfold wordOf
  split
  · split
    · rename_i text _ a ha
      exact congrArg (some ∘ Json.str) (Vocabulary.word_of_ofWord? ha).symm
    · exact .unknownWord hr
  · unfold Read.unknownWord
    split
    · exact .unknownWord hr
    · split
      · exact .unknownWord hr
      · exact .unprintable hq hv ‹_›

end Words

end Field
end FortranExpr
