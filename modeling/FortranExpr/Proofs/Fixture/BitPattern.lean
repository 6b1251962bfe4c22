/-
# Bit patterns read and printed

A bit pattern stands in a document as a string of hexadecimal digits, and in the text of an
expression between `z'` and `'`.

| from | to | |
| --- | --- | --- |
| a string that is no numeral | a rejection | `Json.IsBitPattern.accepted_iff` |
| a numeral | the number that it denotes in base 16 | `Json.IsBitPattern.readExpr_of_isNumeral` |
| a number | its digits, which are read as the number again | `Hexadecimal.read?_digits` |
| a numeral, over its number | it in lower case, without zeros in front | `Hexadecimal.digits_value` |

So of all the strings that are read as one number, printing picks one.
-/

import FortranExpr.Expr.Printer
import FortranExpr.Proofs.Fixture.ReadBack
import FortranExpr.Proofs.Number.Hexadecimal

namespace FortranExpr

open Read (bind_eq_ok)

/-- A record that stands for the bit pattern with the given digits, whatever else is in it. -/
structure Json.IsBitPattern (v : Json) (digits : String) : Prop where
  node : v.get? "node" = some (.str "boz")
  value : v.get? "value" = some (.str digits)

namespace Json

variable {v : Json} {digits : String}

/-- Only an object has members. -/
theorem isObject_of_get?_eq_some {name : String} {w : Json} (h : v.get? name = some w) :
    v.isObject = true := by
  cases v with
  | obj written => rfl
  | _ => cases h

/-- **A bit pattern is read** as the number that its digits denote, and rejected when they are
no numeral. -/
theorem IsBitPattern.readExpr_eq (h : v.IsBitPattern digits) (ids : SymbolIds) (path : Path) :
    readExpr ids v path =
      match Hexadecimal.read? digits.toList with
      | some n => .ok (.boz n)
      | none => .expected .hexDigits (path.member "value") := by
  have hobject : Field.object (some v) path = .ok v := if_pos (isObject_of_get?_eq_some h.node)
  have hkind : (Field.word v "node" path : Read NodeKind) = .ok .boz := Field.word_eq_ok h.node
  have hdigits : Field.string v "value" path = .ok digits := Field.string_eq_ok h.value
  rw [readExpr, Node.expr, hobject]
  dsimp only [bind, Except.bind]
  rw [hkind]
  dsimp only
  rw [Node.boz, hdigits]
  dsimp only [bind, Except.bind]
  cases Hexadecimal.read? digits.toList with
  | some n => rfl
  | none => rfl

/-- **A bit pattern is accepted** exactly when its digits are a numeral. -/
theorem IsBitPattern.accepted_iff (h : v.IsBitPattern digits) (ids : SymbolIds) (path : Path) :
    (∃ e, readExpr ids v path = .ok e) ↔ Hexadecimal.IsNumeral digits.toList := by
  rw [h.readExpr_eq]
  constructor
  · rintro ⟨e, he⟩
    by_contra hno
    rw [Hexadecimal.read?_of_not_isNumeral hno] at he
    cases he
  · intro hnumeral
    rw [Hexadecimal.read?_of_isNumeral hnumeral]
    exact ⟨_, rfl⟩

theorem IsBitPattern.readExpr_of_isNumeral (h : v.IsBitPattern digits)
    (hnumeral : Hexadecimal.IsNumeral digits.toList) (ids : SymbolIds) (path : Path) :
    readExpr ids v path = .ok (.boz (Hexadecimal.value digits.toList)) := by
  rw [h.readExpr_eq, Hexadecimal.read?_of_isNumeral hnumeral]

end Json

namespace Expr

theorem text_boz (n : Nat) :
    (boz n : Expr Symbol).text = "z'" ++ String.ofList (Hexadecimal.digits n) ++ "'" := by
  rw [text]
  rfl

/-- Bit patterns of one text are one bit pattern. -/
theorem text_boz_inj {m n : Nat} :
    (boz m : Expr Symbol).text = (boz n : Expr Symbol).text ↔ m = n := by
  refine ⟨fun h => ?_, fun h => h ▸ rfl⟩
  rw [text_boz, text_boz, String.append_left_inj, String.append_right_inj] at h
  exact Hexadecimal.digits_injective (String.ofList_injective h)

/-- **Bit patterns survive reading and printing.**

A record of a bit pattern is read exactly when its digits are a numeral, that is some hexadecimal
digits of either case; it is read as the number that they denote in base 16, however many they
are, and printed with the same digits in lower case and without zeros in front, or with `0` where
there are only zeros.  The digits that are printed of a number are read as this number.  Two
records that are read print the same exactly when their digits denote the same number. -/
theorem bitPattern_survives (ids : SymbolIds) (path : Path) :
    (∀ v digits, Json.IsBitPattern v digits →
      ((∃ e, readExpr ids v path = .ok e) ↔ Hexadecimal.IsNumeral digits.toList) ∧
      (Hexadecimal.IsNumeral digits.toList →
        readExpr ids v path = .ok (.boz (Hexadecimal.value digits.toList)) ∧
        (boz (Hexadecimal.value digits.toList) : Expr Symbol).text =
          "z'" ++ String.ofList (Hexadecimal.shortened digits.toList) ++ "'")) ∧
    (∀ n : Nat, ∃ digits, (boz n : Expr Symbol).text = "z'" ++ digits ++ "'" ∧
      ∀ v, Json.IsBitPattern v digits → readExpr ids v path = .ok (.boz n)) ∧
    ∀ v v' digits digits' e e', Json.IsBitPattern v digits → Json.IsBitPattern v' digits' →
      readExpr ids v path = .ok e → readExpr ids v' path = .ok e' →
      (e.text = e'.text ↔ Hexadecimal.value digits.toList = Hexadecimal.value digits'.toList) := by
  refine ⟨fun v digits h => ⟨h.accepted_iff ids path, fun hnumeral => ?_⟩, fun n => ?_, ?_⟩
  · refine ⟨h.readExpr_of_isNumeral hnumeral ids path, ?_⟩
    rw [text_boz, Hexadecimal.digits_value hnumeral.isDigit]
  · refine ⟨String.ofList (Hexadecimal.digits n), text_boz n, fun v h => ?_⟩
    rw [h.readExpr_eq, String.toList_ofList, Hexadecimal.read?_digits]
  · intro v v' digits digits' e e' h h' he he'
    have hread := h.readExpr_of_isNumeral ((h.accepted_iff ids path).1 ⟨e, he⟩) ids path
    have hread' := h'.readExpr_of_isNumeral ((h'.accepted_iff ids path).1 ⟨e', he'⟩) ids path
    obtain rfl := Except.ok.inj (he.symm.trans hread)
    obtain rfl := Except.ok.inj (he'.symm.trans hread')
    exact text_boz_inj

/-- Zeros in front and letters of both cases, in a record that has more members than these. -/
def mixedCase : Json :=
  .obj [("value", .str "00fF"), ("comment", .null), ("node", .str "boz")]

theorem bitPattern_survives_mixedCase :
    mixedCase.IsBitPattern "00fF" ∧ readExpr ∅ mixedCase .root = .ok (.boz 255) ∧
      (boz 255 : Expr Symbol).text = "z'ff'" := by
  have hpattern : mixedCase.IsBitPattern "00fF" := ⟨rfl, rfl⟩
  have hnumeral : Hexadecimal.IsNumeral "00fF".toList := by decide
  have hvalue : Hexadecimal.value "00fF".toList = 255 := by decide
  obtain ⟨-, hread⟩ := (bitPattern_survives ∅ .root).1 mixedCase "00fF" hpattern
  obtain ⟨hread, htext⟩ := hread hnumeral
  rw [hvalue] at hread htext
  exact ⟨hpattern, hread, htext⟩

end Expr
end FortranExpr
