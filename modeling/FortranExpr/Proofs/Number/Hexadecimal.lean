/-
# Hexadecimal digits read back

Reading goes on digit by digit, so reading more digits after some is reading them from the
number that these denote (`readFrom?_append`).  Writing puts the last digit behind those of the
quotient by 16, and reading undoes it (`read?_digits`).

Many sequences of digits denote one number (`value`), and writing gives back the shortest of
them (`digits_value`):

| read | denotes | written |
| --- | --- | --- |
| `ff`, `FF`, `00fF` | 255 | `ff` |
| `0`, `000` | 0 | `0` |
| nothing, or anything but digits | nothing | |
-/

import FortranExpr.Number.Hexadecimal
import Mathlib.Data.List.Induction
import Mathlib.Data.Nat.Digits.Defs

namespace FortranExpr
namespace Hexadecimal

/-- Every digit that is written is read as its value. -/
theorem digitValue?_digit {n : Nat} (h : n < 16) : digitValue? (digit n) = some n := by
  have hall : ∀ d : Fin 16, digitValue? (digit d) = some d.1 := by decide
  exact hall ⟨n, h⟩

/-- Reading goes on from where it stands. -/
theorem readFrom?_append (acc : Nat) (first rest : List Char) :
    readFrom? acc (first ++ rest) = (readFrom? acc first).bind fun n => readFrom? n rest := by
  induction first generalizing acc with
  | nil => rfl
  | cons c first ih =>
    rw [List.cons_append, readFrom?, readFrom?, Option.bind_assoc]
    exact congrArg _ (funext fun d => ih (16 * acc + d))

/-- Every number has a digit. -/
theorem digits_ne_nil (n : Nat) : digits n ≠ [] := by
  rw [digits]
  split
  · exact List.cons_ne_nil _ _
  · exact List.append_ne_nil_of_right_ne_nil _ (List.cons_ne_nil _ _)

/-- The digits of a number are read as that number. -/
theorem readFrom?_digits (n : Nat) : readFrom? 0 (digits n) = some n := by
  fun_induction digits n with
  | case1 n h =>
    rw [readFrom?, digitValue?_digit h]
    simp [readFrom?]
  | case2 n h ih =>
    have hdigit := digitValue?_digit (Nat.mod_lt n (by decide : 0 < 16))
    rw [readFrom?_append, ih, Option.bind_some, readFrom?, hdigit, Option.bind_some, readFrom?,
      Nat.div_add_mod]

/-- Only a text without digits is refused from the start. -/
theorem read?_eq_readFrom? {ds : List Char} (h : ds ≠ []) : read? ds = readFrom? 0 ds := by
  cases ds with
  | nil => exact absurd rfl h
  | cons c rest => rfl

/-- **The digits of a number are read back.** -/
theorem read?_digits (n : Nat) : read? (digits n) = some n :=
  (read?_eq_readFrom? (digits_ne_nil n)).trans (readFrom?_digits n)

/-- Different numbers have different digits. -/
theorem digits_injective : Function.Injective digits := fun m n h =>
  Option.some.inj ((read?_digits m).symm.trans (h ▸ read?_digits n))

/-! ### What digits denote -/

/-- The sixteen digits in the order of their values. -/
def alphabet : List Char :=
  ['0', '1', '2', '3', '4', '5', '6', '7', '8', '9', 'a', 'b', 'c', 'd', 'e', 'f']

/-- The digits with letters of either case. -/
def allDigits : List Char := alphabet ++ ['A', 'B', 'C', 'D', 'E', 'F']

/-- A digit, as a letter of either case. -/
def IsDigit (c : Char) : Prop := c ∈ allDigits

instance (c : Char) : Decidable (IsDigit c) := inferInstanceAs (Decidable (_ ∈ _))

/-- The value of a digit: its place in the alphabet. -/
def place (c : Char) : Nat := alphabet.idxOf c.toLower

/-- Digits of either case, at least one of them. -/
structure IsNumeral (ds : List Char) : Prop where
  ne_nil : ds ≠ []
  isDigit : ∀ c ∈ ds, IsDigit c

/-- A numeral is some digits and nothing else. -/
theorem isNumeral_iff {ds : List Char} :
    IsNumeral ds ↔ ds ≠ [] ∧ ds.all (fun c => decide (IsDigit c)) = true := by
  rw [List.all_eq_true]
  constructor
  · exact fun h => ⟨h.ne_nil, fun c hc => decide_eq_true (h.isDigit c hc)⟩
  · exact fun h => ⟨h.1, fun c hc => of_decide_eq_true (h.2 c hc)⟩

instance (ds : List Char) : Decidable (IsNumeral ds) := decidable_of_iff _ isNumeral_iff.symm

/-- The number that digits denote in base 16, the most significant one first. -/
def value (ds : List Char) : Nat := Nat.ofDigits 16 (ds.map place).reverse

/-- The digits in lower case, without zeros in front; a single zero where there is nothing
else. -/
def shortened (ds : List Char) : List Char :=
  match (ds.map Char.toLower).dropWhile (· == '0') with
  | [] => ['0']
  | rest => rest

/-- What is checked of each of the digits. -/
theorem of_isDigit {p : Char → Prop} [DecidablePred p]
    (hall : allDigits.all (fun c => decide (p c)) = true) {c : Char} (h : IsDigit c) : p c :=
  of_decide_eq_true (List.all_eq_true.1 hall c h)

/-- A digit counts less than sixteen. -/
theorem place_lt {c : Char} (h : IsDigit c) : place c < 16 :=
  of_isDigit (p := fun c => place c < 16) (by decide) h

/-- The digit of a value is the one that was read, as a small letter. -/
theorem digit_place {c : Char} (h : IsDigit c) : digit (place c) = c.toLower :=
  of_isDigit (p := fun c => digit (place c) = c.toLower) (by decide) h

/-- Only the zero counts nothing. -/
theorem place_eq_zero_iff {c : Char} (h : IsDigit c) : place c = 0 ↔ c.toLower = '0' :=
  of_isDigit (p := fun c => place c = 0 ↔ c.toLower = '0') (by decide) h

/-- The digits are found by ranges of characters as they are in the alphabet. -/
theorem digitValue?_eq (c : Char) : digitValue? c = if IsDigit c then some (place c) else none := by
  by_cases hascii : c.toNat < 128
  · have hall : ∀ n : Fin 128, digitValue? (Char.ofNat n) =
        if IsDigit (Char.ofNat n) then some (place (Char.ofNat n)) else none := by decide +kernel
    have h := hall ⟨c.toNat, hascii⟩
    rwa [Char.ofNat_toNat] at h
  · have hrange (d : Char) (hd : d.toNat < 128) : ¬c ≤ d := fun h =>
      hascii (Nat.lt_of_le_of_lt h hd)
    have hno : ¬IsDigit c := fun h =>
      hascii (of_isDigit (p := fun d => d.toNat < 128) (by decide) h)
    rw [if_neg hno, digitValue?,
      if_neg fun h => hrange '9' (by decide) h.2, if_neg fun h => hrange 'f' (by decide) h.2,
      if_neg fun h => hrange 'F' (by decide) h.2]

/-- One more digit at the end. -/
theorem value_concat (ds : List Char) (c : Char) :
    value (ds ++ [c]) = 16 * value ds + place c := by
  rw [value, List.map_append, List.map_singleton, List.reverse_append, List.reverse_singleton,
    List.singleton_append, Nat.ofDigits_cons, value, Nat.add_comm]

/-- **Digits are read as the number that they denote,** and nothing else is read. -/
theorem readFrom?_eq (ds : List Char) :
    readFrom? 0 ds = if ds.all (fun c => decide (IsDigit c)) then some (value ds) else none := by
  induction ds using List.reverseRecOn with
  | nil => rfl
  | append_singleton ds c ih =>
    rw [readFrom?_append, ih, List.all_append, List.all_cons, List.all_nil, Bool.and_true]
    cases ds.all fun c => decide (IsDigit c) with
    | false => rfl
    | true =>
      rw [if_pos rfl, Option.bind_some, readFrom?, digitValue?_eq, Bool.true_and]
      by_cases hc : IsDigit c
      · rw [if_pos hc, if_pos (decide_eq_true hc), value_concat]
        rfl
      · rw [if_neg hc, decide_eq_false hc]
        rfl

/-- A numeral is read as its value. -/
theorem read?_of_isNumeral {ds : List Char} (h : IsNumeral ds) : read? ds = some (value ds) := by
  rw [read?_eq_readFrom? h.ne_nil, readFrom?_eq, if_pos (isNumeral_iff.1 h).2]

/-- Nothing else is read. -/
theorem read?_of_not_isNumeral {ds : List Char} (h : ¬IsNumeral ds) : read? ds = none := by
  by_cases hnil : ds = []
  · rw [hnil]
    rfl
  · have hdigits := fun hall => h (isNumeral_iff.2 ⟨hnil, hall⟩)
    rw [read?_eq_readFrom? hnil, readFrom?_eq, if_neg hdigits]

/-! ### What is written of a number that was read -/

/-- The digits of a number, last one apart. -/
theorem digits_concat {n d : Nat} (hd : d < 16) :
    digits (16 * n + d) = if n = 0 then [digit d] else digits n ++ [digit d] := by
  split
  · rename_i hn
    rw [hn, Nat.mul_zero, Nat.zero_add, digits, dif_pos hd]
  · rw [digits, dif_neg (by omega)]
    congr 3 <;> omega

/-- A text counts nothing when all its digits are zeros. -/
theorem value_eq_zero_iff {ds : List Char} (h : ∀ c ∈ ds, IsDigit c) :
    value ds = 0 ↔ (ds.map Char.toLower).dropWhile (· == '0') = [] := by
  induction ds using List.reverseRecOn with
  | nil => exact iff_of_true rfl rfl
  | append_singleton ds c ih =>
    obtain ⟨hds, hc⟩ := List.forall_mem_append.1 h
    have hlast := place_eq_zero_iff (hc c List.mem_cons_self)
    rw [value_concat, List.map_append, List.dropWhile_append, Nat.add_eq_zero_iff, hlast,
      Nat.mul_eq_zero, or_iff_right (by decide), ih hds]
    by_cases hzeros : (ds.map Char.toLower).dropWhile (· == '0') = []
    · simp [hzeros, List.dropWhile_cons]
    · simp [hzeros]

/-- **Writing gives the digits back,** in lower case and without zeros in front. -/
theorem digits_value {ds : List Char} (h : ∀ c ∈ ds, IsDigit c) :
    digits (value ds) = shortened ds := by
  induction ds using List.reverseRecOn with
  | nil => rw [digits]; rfl
  | append_singleton ds c ih =>
    obtain ⟨hds, hc⟩ := List.forall_mem_append.1 h
    have hdigit := hc c List.mem_cons_self
    have hzero := value_eq_zero_iff hds
    rw [value_concat, digits_concat (place_lt hdigit), ih hds, digit_place hdigit, shortened,
      shortened, List.map_append, List.dropWhile_append]
    by_cases hvalue : value ds = 0
    · -- zeros in front: the last digit is the first one that is written
      rw [if_pos hvalue, hzero.1 hvalue]
      by_cases hlast : c.toLower = '0' <;> simp [hlast]
    · have hsome := mt hzero.2 hvalue
      rw [if_neg hvalue]
      simp [hsome]

end Hexadecimal
end FortranExpr
