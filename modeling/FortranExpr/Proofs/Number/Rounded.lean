/-
# Whole numbers that are rounded

From `2 ^ 53` on, whole numbers are rounded to multiples of a power of two.

| exact | rounded |
| --- | --- |
| `n < 2 ^ 53` | `n` |
| `2 ^ e ≤ n < 2 ^ (e + 1)`, `53 ≤ e` | `m * 2 ^ (e - 52)`, a whole number with `2 ^ 52 ≤ m` |
| beyond the range | infinite |

So a result is whole or infinite, and one below `2 ^ 53` is exact (`eq_of_ofNat_eq_finite`).  The
same holds of a product of many whole numbers, rounded after each factor: what is rounded on the
way is at least `2 ^ 53`, and only a factor of zero brings it below that again, or makes the
product undefined if it is infinite by then (`prod_eq_of_foldl_mul`).
-/

import FortranExpr.Proofs.Number.Exact
import Mathlib.Data.List.Induction

namespace FortranExpr
namespace Binary64

theorem le_nearestInt {z : Int} {q : Rat} (h : (z : Rat) ≤ q) : z ≤ nearestInt q := by
  have hfloor : z ≤ q.floor := Rat.le_floor_iff.2 h
  unfold nearestInt
  dsimp only
  split
  · exact hfloor
  · split
    · omega
    · split <;> omega

/-- What a whole number is rounded to, from `2 ^ 53` on. -/
theorem exists_of_ofNat_eq_finite {n : Nat} {q : Rat} (hn : 2 ^ 53 ≤ n) (h : ofNat n = finite q) :
    ∃ m t : Nat, 2 ^ 52 ≤ m ∧ 1 ≤ t ∧ q = (m * 2 ^ t : Nat) := by
  have hne : n ≠ 0 := Nat.ne_of_gt (Nat.lt_of_lt_of_le (by decide) hn)
  have hcast : (n : Rat) ≠ 0 := fun h0 => hne (Rat.natCast_eq_zero_iff.1 h0)
  have hlog : 53 ≤ n.log2 := (Nat.le_log2 hne).2 hn
  obtain ⟨t, ht⟩ : ∃ t, n.log2 = 52 + t := ⟨n.log2 - 52, by omega⟩
  have hunit : spacing (magnitude n) = (2 : Rat) ^ t := by
    have hexponent : Max.max ((n.log2 : Int) - 52) (-1074) = (t : Int) := by omega
    rw [magnitude_natCast, spacing, binaryExponent_natCast hne, hexponent, Rat.zpow_natCast]
  have hpow : (0 : Rat) < (2 : Rat) ^ t := Rat.pow_pos (by decide)
  have hlow : ((2 ^ 52 : Nat) : Int) ≤ nearestInt ((n : Rat) / (2 : Rat) ^ t) := by
    refine le_nearestInt (Rat.not_lt.1 fun hlt => ?_)
    rw [Rat.div_lt_iff hpow, Rat.intCast_natCast] at hlt
    have hself : 2 ^ 52 * 2 ^ t ≤ n := by
      rw [← Nat.pow_add, ← ht]
      exact Nat.log2_self_le hne
    have hself' := Rat.natCast_le_natCast.2 hself
    rw [Rat.natCast_mul, Rat.natCast_pow 2 t] at hself'
    exact Rat.not_lt.2 hself' hlt
  obtain ⟨m, hm⟩ := Int.eq_ofNat_of_zero_le (Int.le_trans (Int.natCast_nonneg _) hlow)
  rw [hm] at hlow
  rw [ofNat, ofRat, if_neg hcast] at h
  dsimp only at h
  rw [hunit, hm] at h
  split at h
  · cases h
  · refine ⟨m, t, Int.ofNat_le.1 hlow, by omega, ?_⟩
    rw [← finite.inj h, Rat.natCast_mul, Rat.natCast_pow 2 t]
    rfl

/-- A whole number is rounded to a whole number. -/
theorem exists_natCast_of_ofNat {n : Nat} {q : Rat} (h : ofNat n = finite q) :
    ∃ k : Nat, q = k := by
  rcases Nat.lt_or_ge n (2 ^ 53) with hn | hn
  · rw [ofNat_eq_finite (Nat.le_of_lt hn)] at h
    exact ⟨n, (finite.inj h).symm⟩
  · obtain ⟨m, t, -, -, hq⟩ := exists_of_ofNat_eq_finite hn h
    exact ⟨_, hq⟩

/-- **A number below `2 ^ 53`** is rounded to by no other whole number. -/
theorem eq_of_ofNat_eq_finite {n k : Nat} (h : ofNat n = finite k) (hk : k < 2 ^ 53) : n = k := by
  rcases Nat.lt_or_ge n (2 ^ 53) with hn | hn
  · rw [ofNat_eq_finite (Nat.le_of_lt hn)] at h
    exact Rat.natCast_inj.1 (finite.inj h)
  · obtain ⟨m, t, hm, ht, hq⟩ := exists_of_ofNat_eq_finite hn h
    have hle : 2 ^ 53 ≤ k := calc
      2 ^ 53 = 2 ^ 52 * 2 ^ 1 := by decide
      _ ≤ m * 2 ^ t := Nat.mul_le_mul hm (Nat.pow_le_pow_right (by decide) ht)
      _ = k := (Rat.natCast_inj.1 hq).symm
    exact absurd hk (Nat.not_lt.2 hle)

/-! ### Products -/

/-- A product with a whole number is finite only if the other factor is. -/
theorem exists_finite_of_mul {x : Binary64} {n : Nat} {q : Rat} (h : x * finite n = finite q) :
    ∃ p, x = finite p := by
  cases x with
  | nan => cases h
  | infinity negative =>
    have hmul : infinity negative * finite (n : Rat) =
        if (n : Rat) = 0 then nan else infinity (negative != decide ((n : Rat) < 0)) := rfl
    rw [hmul] at h
    split at h <;> cases h
  | finite p => exact ⟨p, rfl⟩

/-- **A product of whole numbers, rounded after each factor,** is whole if it is finite, and exact
if it is below `2 ^ 53`. -/
theorem foldl_mul_eq_finite {factors : List Nat} {q : Rat}
    (h : (factors.map fun n : Nat => finite n).foldl (· * ·) 1 = finite q) :
    ∃ k : Nat, q = k ∧ (k < 2 ^ 53 → factors.prod = k) := by
  induction factors using List.reverseRecOn generalizing q with
  | nil => exact ⟨1, (finite.inj h).symm, fun _ => rfl⟩
  | append_singleton factors n ih =>
    rw [List.map_append, List.foldl_append] at h
    obtain ⟨p, hp⟩ := exists_finite_of_mul h
    obtain ⟨j, rfl, hj⟩ := ih hp
    have hproduct : ofNat (j * n) = finite q := by
      rw [hp] at h
      rw [ofNat, Rat.natCast_mul]
      exact h
    obtain ⟨k, rfl⟩ := exists_natCast_of_ofNat hproduct
    refine ⟨k, rfl, fun hk => ?_⟩
    have hexact : j * n = k := eq_of_ofNat_eq_finite hproduct hk
    rw [List.prod_append, List.prod_singleton, ← hexact]
    rcases Nat.eq_zero_or_pos n with rfl | hn
    · rfl
    · -- no factor behind is zero, so the product before is no greater
      have hle : j ≤ j * n := Nat.le_mul_of_pos_right j hn
      rw [hj (Nat.lt_of_le_of_lt (hexact ▸ hle) hk)]

/-- **The extents of fewer than `2 ^ 53` values** multiply to their number as soon as they do so in
double precision, whatever is rounded on the way. -/
theorem prod_eq_of_foldl_mul {factors : List Nat} {k : Nat} (hk : k < 2 ^ 53)
    (h : (factors.map fun n : Nat => finite n).foldl (· * ·) 1 = ofNat k) : factors.prod = k := by
  rw [ofNat_eq_finite (Nat.le_of_lt hk)] at h
  obtain ⟨j, hcast, hj⟩ := foldl_mul_eq_finite h
  obtain rfl := Rat.natCast_inj.1 hcast
  exact hj hk

/-- From `2 ^ 53` on this fails: here the product is `2 ^ 53 + 1`. -/
example : ([3, 3002399751580331].map fun n : Nat => finite n).foldl (· * ·) 1 = ofNat (2 ^ 53) ∧
    [3, 3002399751580331].prod = 2 ^ 53 + 1 := by
  decide +kernel

end Binary64
end FortranExpr
