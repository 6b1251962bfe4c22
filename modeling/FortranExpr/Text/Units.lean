/-
# Text in 16-bit units

A character below `0x10000` is one unit, every other character a pair of surrogates:
a high one from `0xD800` on and a low one from `0xDC00` on.  A surrogate that stands
alone is no character and is read as the replacement character, so units that differ
only in such surrogates are one text here.  All others are kept apart.

| text | units |
| --- | --- |
| `a` | `0x61` |
| `😀` | `0xD83D`, `0xDE00` |

`decode_encode`: the units of a text are read as that text.
`encode_decode_iff`: units can be had back from their text exactly when every surrogate
among them stands in a pair.
-/

namespace FortranExpr
namespace Units

/-- The units of a character. -/
def ofChar (c : Char) : List Nat :=
  if c.toNat < 0x10000 then [c.toNat]
  else [0xD800 + (c.toNat - 0x10000) / 0x400, 0xDC00 + (c.toNat - 0x10000) % 0x400]

/-- The units of a text. -/
def encode (text : List Char) : List Nat := text.flatMap ofChar

/-- The character of a unit that is in no pair. -/
def single (unit : Nat) : Char := if unit.isValidChar then Char.ofNat unit else '\uFFFD'

/-- A high surrogate, and a low one after it. -/
def isPair (high low : Nat) : Bool :=
  0xD800 ≤ high && high < 0xDC00 && 0xDC00 ≤ low && low < 0xE000

/-- The text of units. -/
def decode : List Nat → List Char
  | [] => []
  | [unit] => [single unit]
  | high :: low :: rest =>
    if isPair high low then
      Char.ofNat (0x10000 + (high - 0xD800) * 0x400 + (low - 0xDC00)) :: decode rest
    else single high :: decode (low :: rest)

/-- Every surrogate is half of a pair, and every other unit a character by itself. -/
def ArePaired : List Nat → Prop
  | [] => True
  | [unit] => unit.isValidChar ∧ unit < 0x10000
  | high :: low :: rest =>
    if isPair high low then ArePaired rest
    else (high.isValidChar ∧ high < 0x10000) ∧ ArePaired (low :: rest)

/-! ### Characters as units -/

/-- A number that is a character is the number of that character. -/
theorem toNat_ofNat {n : Nat} (h : n.isValidChar) : (Char.ofNat n).toNat = n := by
  rw [Char.ofNat, dif_pos h]
  rfl

/-- A character is read from its number. -/
theorem single_toNat (c : Char) : single c.toNat = c := by
  have h : c.toNat.isValidChar := c.valid
  rw [single, if_pos h, Char.ofNat_toNat]

/-- A unit that is a character by itself is had back. -/
theorem ofChar_single {unit : Nat} (h : unit.isValidChar ∧ unit < 0x10000) :
    ofChar (single unit) = [unit] := by
  rw [ofChar, single, if_pos h.1, toNat_ofNat h.1, if_pos h.2]

/-- No character begins a pair. -/
theorem isPair_toNat (c : Char) (low : Nat) : isPair c.toNat low = false := by
  have hv : c.toNat.isValidChar := c.valid
  simp only [Nat.isValidChar] at hv
  simp only [isPair, Bool.and_eq_false_iff, decide_eq_false_iff_not]
  omega

/-- A pair is the units of the character it stands for. -/
theorem ofChar_pair {high low : Nat} (h : isPair high low = true) :
    ofChar (Char.ofNat (0x10000 + (high - 0xD800) * 0x400 + (low - 0xDC00))) = [high, low] := by
  simp only [isPair, Bool.and_eq_true, decide_eq_true_eq] at h
  have hvalid : (0x10000 + (high - 0xD800) * 0x400 + (low - 0xDC00)).isValidChar := by
    simp only [Nat.isValidChar]
    omega
  have hhigh : 0xD800 + (0x10000 + (high - 0xD800) * 0x400 + (low - 0xDC00) - 0x10000) / 0x400 =
      high := by omega
  have hlow : 0xDC00 + (0x10000 + (high - 0xD800) * 0x400 + (low - 0xDC00) - 0x10000) % 0x400 =
      low := by omega
  rw [ofChar, toNat_ofNat hvalid, if_neg (by omega), hhigh, hlow]

/-- The units of a character beyond the first `0x10000` are a pair that stands for it. -/
theorem exists_pair {c : Char} (h : ¬c.toNat < 0x10000) :
    ∃ high low, ofChar c = [high, low] ∧ isPair high low = true ∧
      Char.ofNat (0x10000 + (high - 0xD800) * 0x400 + (low - 0xDC00)) = c := by
  have hv : c.toNat.isValidChar := c.valid
  simp only [Nat.isValidChar] at hv
  refine ⟨_, _, by rw [ofChar, if_neg h], ?_, ?_⟩
  · simp only [isPair, Bool.and_eq_true, decide_eq_true_eq]
    omega
  · have hc : 0x10000 + (0xD800 + (c.toNat - 0x10000) / 0x400 - 0xD800) * 0x400 +
        (0xDC00 + (c.toNat - 0x10000) % 0x400 - 0xDC00) = c.toNat := by omega
    rw [hc, Char.ofNat_toNat]

/-! ### Texts as units -/

/-- One character after another. -/
theorem encode_cons (c : Char) (rest : List Char) :
    encode (c :: rest) = ofChar c ++ encode rest := List.flatMap_cons

/-- A character in front is read alone, as it begins no pair. -/
theorem decode_cons_toNat (c : Char) (rest : List Nat) :
    decode (c.toNat :: rest) = c :: decode rest := by
  cases rest with
  | nil => simp [decode, single_toNat]
  | cons low rest => rw [decode, isPair_toNat, if_neg Bool.false_ne_true, single_toNat]

/-- A character in front leaves the pairs as they are. -/
theorem arePaired_cons_of_char {c : Char} (h : c.toNat < 0x10000) {rest : List Nat}
    (hrest : ArePaired rest) : ArePaired (c.toNat :: rest) := by
  cases rest with
  | nil => exact ⟨c.valid, h⟩
  | cons low rest =>
    rw [ArePaired, isPair_toNat, if_neg Bool.false_ne_true]
    exact ⟨⟨c.valid, h⟩, hrest⟩

/-- **The units of a text are read as that text.** -/
theorem decode_encode (text : List Char) : decode (encode text) = text := by
  induction text with
  | nil => rfl
  | cons c rest ih =>
    rw [encode_cons]
    by_cases h : c.toNat < 0x10000
    · rw [ofChar, if_pos h, List.singleton_append, decode_cons_toNat, ih]
    · obtain ⟨high, low, hunits, hpair, hc⟩ := exists_pair h
      rw [hunits, List.cons_append, List.singleton_append, decode, if_pos hpair, hc, ih]

/-- The units of a text are paired. -/
theorem arePaired_encode (text : List Char) : ArePaired (encode text) := by
  induction text with
  | nil => trivial
  | cons c rest ih =>
    rw [encode_cons]
    by_cases h : c.toNat < 0x10000
    · rw [ofChar, if_pos h]
      exact arePaired_cons_of_char h ih
    · obtain ⟨high, low, hunits, hpair, -⟩ := exists_pair h
      rw [hunits, List.cons_append, List.singleton_append, ArePaired, if_pos hpair]
      exact ih

/-- Paired units are had back from their text. -/
theorem encode_decode {units : List Nat} (h : ArePaired units) : encode (decode units) = units := by
  fun_induction decode units with
  | case1 => rfl
  | case2 unit => rw [encode_cons, ofChar_single h]; rfl
  | case3 high low rest hpair ih =>
    rw [ArePaired, if_pos hpair] at h
    rw [encode_cons, ofChar_pair hpair, ih h]
    rfl
  | case4 high low rest hpair ih =>
    rw [ArePaired, if_neg hpair] at h
    rw [encode_cons, ofChar_single h.1, ih h.2]
    rfl

/-- **What reading keeps of units:** all of them where every surrogate stands in a pair, and
only there.  So two such sequences with the same text are the same. -/
theorem encode_decode_iff {units : List Nat} : encode (decode units) = units ↔ ArePaired units :=
  ⟨fun h => h ▸ arePaired_encode (decode units), encode_decode⟩

end Units
end FortranExpr
