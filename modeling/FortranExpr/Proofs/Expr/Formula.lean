/-
# Formulas

A formula is made of names, components, whole numbers, operations, comparisons and parentheses
(`Expr.IsFormula`).

| leaf | text |
| --- | --- |
| a name | a letter, then letters, digits and underscores |
| an integer | its digits |
| a number | the digits of an integer that rounds to it, itself up to `2 ^ 53` |

Two formulas agree (`Expr.Agrees`) when they have the same operations at the same places, over
the same names and alike values.  Categories are not compared, except that of a conversion, and
what counts as alike is a parameter: the same value (`Value.SameNumber`), or the same value up
to the rounding of large numbers (`Value.SameUpToRounding`).  The text of a value tells it up to
rounding, and no further.
-/

import FortranExpr.Proofs.Expr.Literal
import FortranExpr.Proofs.Number.Whole

namespace FortranExpr

/-! ### Words -/

/-- A letter.  Beyond ASCII every character may be one. -/
def isLetter (c : Char) : Bool :=
  decide ('A'.toNat ≤ c.toNat ∧ c.toNat ≤ 'Z'.toNat ∨
    'a'.toNat ≤ c.toNat ∧ c.toNat ≤ 'z'.toNat ∨ 128 ≤ c.toNat)

/-- A character of a word: a letter, a digit or an underscore. -/
def isWordChar (c : Char) : Bool := isLetter c || c.isDigit || c == '_'

/-- A letter followed by letters, digits and underscores. -/
def IsIdentifier (name : String) : Prop :=
  ∃ first rest, name.toList = first :: rest ∧ isLetter first = true ∧
    ∀ c ∈ rest, isWordChar c = true

/-- A word is not empty, and has no other characters. -/
def IsWord (letters : List Char) : Prop :=
  letters ≠ [] ∧ ∀ c ∈ letters, isWordChar c = true

theorem IsIdentifier.isWord {name : String} (h : IsIdentifier name) : IsWord name.toList := by
  obtain ⟨first, rest, hname, hfirst, hrest⟩ := h
  rw [hname]
  refine ⟨List.cons_ne_nil _ _, fun c hc => ?_⟩
  rcases List.mem_cons.1 hc with rfl | hc
  · rw [isWordChar, hfirst]
    rfl
  · exact hrest c hc

theorem isWord_toDigits (n : Nat) : IsWord (Nat.toDigits 10 n) := by
  refine ⟨Nat.toDigits_ne_nil, fun c hc => ?_⟩
  have hdigit : c.isDigit = true := Nat.isDigit_of_mem_toDigits (by decide) (by decide) hc
  rw [isWordChar, hdigit, Bool.or_true]
  rfl

theorem isLetter_eq_false_of_isDigit {c : Char} (h : c.isDigit = true) : isLetter c = false := by
  have hc : 48 ≤ c.toNat ∧ c.toNat ≤ 57 := by
    simpa [Char.isDigit, UInt32.le_iff_toNat_le] using h
  have hA : 'A'.toNat = 65 := rfl
  have ha : 'a'.toNat = 97 := rfl
  rw [isLetter, decide_eq_false_iff_not]
  omega

/-- No name is a row of digits. -/
theorem IsIdentifier.ne_toDigits {name : String} (h : IsIdentifier name) (n : Nat) :
    name.toList ≠ Nat.toDigits 10 n := by
  obtain ⟨first, rest, hname, hfirst, -⟩ := h
  intro heq
  have hmem : first ∈ Nat.toDigits 10 n := by
    rw [← heq, hname]
    exact List.mem_cons_self
  have hdigit : first.isDigit = true :=
    Nat.isDigit_of_mem_toDigits (by decide) (by decide) hmem
  rw [isLetter_eq_false_of_isDigit hdigit] at hfirst
  cases hfirst

theorem toDigits_injective {m n : Nat} (h : Nat.toDigits 10 m = Nat.toDigits 10 n) : m = n := by
  rw [← Nat.ofDigitChars_toDigits (b := 10) (n := m) (by decide) (by decide), h,
    Nat.ofDigitChars_toDigits (by decide) (by decide)]

/-! ### Values -/

namespace Value

/-- A whole number that is not negative and has no exponent in its text: an integer of any size,
or a number of double precision below `10 ^ 21`. -/
inductive IsUnsigned : Value → Prop
  | integer (n : Nat) : IsUnsigned (.integer n)
  | number {k : Nat} : k < 10 ^ 21 → Binary64.ofNat k = .finite k →
      IsUnsigned (.number (.finite k))

/-- Both are the same integer. -/
def SameNumber (v w : Value) : Prop := ∃ n : Int, v.IsInt n ∧ w.IsInt n

theorem SameNumber.toInt?_eq {v w : Value} (h : v.SameNumber w) : v.toInt? = w.toInt? := by
  obtain ⟨n, hv, hw⟩ := h
  rw [toInt?_eq_some_iff.2 hv, toInt?_eq_some_iff.2 hw]

/-- An integer that is written like a number above `2 ^ 53`, and rounds to it. -/
inductive RoundsTo : Value → Value → Prop
  | mk {n k : Nat} : 2 ^ 53 < k → Binary64.ofNat n = .finite k →
      (Binary64.finite k).text = n.repr → RoundsTo (.integer n) (.number (.finite k))

/-- Both are the same integer, or one is a large number and the other an integer that is written
like it. -/
def SameUpToRounding (v w : Value) : Prop := v.SameNumber w ∨ v.RoundsTo w ∨ w.RoundsTo v

/-- The text of a value shows the digits of a natural number that rounds to it. -/
theorem IsUnsigned.exists_text {v : Value} (h : v.IsUnsigned) : ∃ n : Nat,
    v.text = String.ofList (Nat.toDigits 10 n) ∧
      (v = .integer n ∨ ∃ k : Nat, v = .number (.finite k) ∧ Binary64.ofNat n = .finite k ∧
        (k ≤ 2 ^ 53 → n = k)) := by
  cases h with
  | integer n => exact ⟨n, Nat.repr_eq_ofList_toDigits, .inl rfl⟩
  | number hlt hk =>
    obtain ⟨n, htext, hround, hsmall⟩ := Binary64.exists_text_eq hlt hk
    exact ⟨n, htext, .inr ⟨_, rfl, hround, hsmall⟩⟩

theorem IsUnsigned.isWord_text {v : Value} (h : v.IsUnsigned) : IsWord v.text.toList := by
  obtain ⟨n, htext, -⟩ := h.exists_text
  rw [htext, String.toList_ofList]
  exact isWord_toDigits n

theorem IsUnsigned.isNegative_eq_false {v : Value} (h : v.IsUnsigned) :
    v.isNegative = false := by
  cases h with
  | integer n => exact decide_eq_false (Int.not_lt.2 (Int.natCast_nonneg n))
  | number => exact decide_eq_false (Rat.not_lt.2 Rat.natCast_nonneg)

/-- An integer and a number of one text. -/
theorem roundsTo_or_sameNumber {n k : Nat} (hround : Binary64.ofNat n = .finite k)
    (hsmall : k ≤ 2 ^ 53 → n = k)
    (htext : (number (.finite k)).text = String.ofList (Nat.toDigits 10 n)) :
    (integer n).SameNumber (number (.finite k)) ∨ (integer n).RoundsTo (number (.finite k)) := by
  rcases Nat.lt_or_ge (2 ^ 53) k with hlarge | hle
  · exact .inr ⟨hlarge, hround, htext.trans Nat.repr_eq_ofList_toDigits.symm⟩
  · obtain rfl := hsmall hle
    exact .inl ⟨n, .integer n, .number n⟩

/-- **Values of one text** are the same up to rounding. -/
theorem IsUnsigned.sameUpToRounding {v w : Value} (hv : v.IsUnsigned) (hw : w.IsUnsigned)
    (h : v.text = w.text) : v.SameUpToRounding w := by
  obtain ⟨m, hm, hmv⟩ := hv.exists_text
  obtain ⟨n, hn, hnw⟩ := hw.exists_text
  obtain rfl : m = n := by
    rw [hm, hn] at h
    exact toDigits_injective (String.ofList_injective h)
  rcases hmv with rfl | ⟨k, rfl, hk, hksmall⟩ <;> rcases hnw with rfl | ⟨l, rfl, hl, hlsmall⟩
  · exact .inl ⟨m, .integer m, .integer m⟩
  · exact (roundsTo_or_sameNumber hl hlsmall hn).imp id .inl
  · rcases roundsTo_or_sameNumber hk hksmall hm with ⟨i, hi, hi'⟩ | hrounds
    · exact .inl ⟨i, hi', hi⟩
    · exact .inr (.inr hrounds)
  · obtain rfl : k = l := Rat.natCast_inj.1 (Binary64.finite.inj (hk.symm.trans hl))
    exact .inl ⟨k, .number k, .number k⟩

end Value

/-- No name is the text of a whole number. -/
theorem IsIdentifier.ne_text {name : String} {v : Value} (h : IsIdentifier name)
    (hv : v.IsUnsigned) : name.toList ≠ v.text.toList := by
  obtain ⟨n, htext, -⟩ := hv.exists_text
  rw [htext, String.toList_ofList]
  exact h.ne_toDigits n

theorem Constant.text_integer {values : List Value} {v : Value} (h : values.head? = some v) :
    Constant.text ⟨.integer, values, []⟩ = v.text :=
  Constant.text_of_scalar? (c := ⟨.integer, values, []⟩) h

/-! ### Formulas -/

namespace Expr

/-- Names and components of names, whole numbers as scalar literals, operations, comparisons and
parentheses. -/
inductive IsFormula : Expr Symbol → Prop
  | name {s : Symbol} : IsIdentifier s.name → IsFormula (.entity (.symbol s))
  | component {base : DataRef Symbol} {c : Symbol} : IsFormula (.entity base) →
      IsIdentifier c.name → IsFormula (.entity (.component (.entity base) c))
  | literal {values : List Value} {v : Value} : values.head? = some v → v.IsUnsigned →
      IsFormula (.constant ⟨.integer, values, []⟩)
  | unary (op : UnaryOp) (category : TypeCategory) {operand : Expr Symbol} :
      IsFormula operand → IsFormula (.unary op category operand)
  | binary (op : BinaryOp) (category : TypeCategory) {left right : Expr Symbol} :
      IsFormula left → IsFormula right → IsFormula (.binary op category left right)
  | relational (op : RelationalOp) {left right : Expr Symbol} :
      IsFormula left → IsFormula right → IsFormula (.relational op left right)
  | parens {operand : Expr Symbol} : IsFormula operand → IsFormula (.parens operand)

/-- The same operations at the same places, over the same names and over values that are
`alike`. -/
inductive Agrees (alike : Value → Value → Prop) : Expr Symbol → Expr Symbol → Prop
  | name {s t : Symbol} : s.name = t.name →
      Agrees alike (.entity (.symbol s)) (.entity (.symbol t))
  | component {base base' : Expr Symbol} {c c' : Symbol} : Agrees alike base base' →
      c.name = c'.name →
      Agrees alike (.entity (.component base c)) (.entity (.component base' c'))
  | literal {c c' : Constant} {v w : Value} : c.scalar? = some v → c'.scalar? = some w →
      alike v w → Agrees alike (.constant c) (.constant c')
  | unary {op : UnaryOp} {category category' : TypeCategory} {x x' : Expr Symbol} :
      (op = .convert → category = category') → Agrees alike x x' →
      Agrees alike (.unary op category x) (.unary op category' x')
  | binary {op : BinaryOp} {category category' : TypeCategory} {x x' y y' : Expr Symbol} :
      Agrees alike x x' → Agrees alike y y' →
      Agrees alike (.binary op category x y) (.binary op category' x' y')
  | relational {op : RelationalOp} {x x' y y' : Expr Symbol} :
      Agrees alike x x' → Agrees alike y y' →
      Agrees alike (.relational op x y) (.relational op x' y')

end Expr
end FortranExpr
