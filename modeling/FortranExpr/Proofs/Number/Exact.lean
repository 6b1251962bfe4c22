/-
# Whole numbers that are not rounded

A multiple of the spacing of the grid at its own magnitude is on the grid, so rounding leaves
it as it is (`ofRat_of_grid`).  The spacing is at most 1 below `2 ^ 53`, and 2 at `2 ^ 53`
itself:

| `n` | spacing | `n` in multiples of it |
| --- | --- | --- |
| `2 ^ e ≤ n < 2 ^ (e + 1)`, `e ≤ 52` | `2 ^ (e - 52)` | `n * 2 ^ (52 - e)` |
| `2 ^ 53` | `2` | `2 ^ 52` |

So whole numbers up to `2 ^ 53` are exact, and a product of whole numbers is computed exactly
when no product of the first few of them is greater (`foldl_mul_eq_ofNat`).
-/

import FortranExpr.Number.Binary64
import Mathlib.Algebra.Ring.Nat

namespace FortranExpr
namespace Binary64

/-- A whole number is the nearest one to itself. -/
theorem nearestInt_intCast (z : Int) : nearestInt z = z := by
  have hrest : (z : Rat) - ((z : Rat).floor : Rat) = 0 := by
    rw [Rat.floor_intCast, Rat.sub_self]
  unfold nearestInt
  dsimp only
  rw [hrest, if_pos (by decide +kernel), Rat.floor_intCast]

/-- Doubles of one binade are a positive distance apart. -/
theorem spacing_pos (q : Rat) : 0 < spacing q := Rat.zpow_pos (by decide)

/-- **A number on the grid is not rounded.** -/
theorem ofRat_of_grid {q : Rat} {z : Int} (hz : q = z * spacing (magnitude q))
    (hbound : magnitude q < (2 : Rat) ^ (1024 : Nat)) : ofRat q = finite q := by
  by_cases hq : q = 0
  · subst hq
    rfl
  · have hunit : spacing (magnitude q) ≠ 0 := (Rat.ne_of_gt (spacing_pos _))
    have hquotient : q / spacing (magnitude q) = z :=
      (congrArg (· / spacing (magnitude q)) hz).trans (Rat.mul_div_cancel hunit)
    unfold ofRat
    rw [if_neg hq]
    dsimp only
    rw [hquotient, nearestInt_intCast, ← hz, if_neg (Rat.not_le.2 hbound)]

/-- A natural number is its own magnitude. -/
theorem magnitude_natCast (n : Nat) : magnitude n = n :=
  if_neg (Rat.not_lt.2 Rat.natCast_nonneg)

/-- The binade of a natural number is that of its highest bit. -/
theorem binaryExponent_natCast {n : Nat} (hn : n ≠ 0) : binaryExponent n = n.log2 := by
  have hexponent : (((n : Rat).num.natAbs.log2 : Nat) : Int) - ((n : Rat).den.log2 : Int) =
      n.log2 := by
    have hone : Nat.log2 1 = 0 := by decide
    rw [Rat.num_natCast, Rat.den_natCast, hone, Int.natAbs_natCast]
    omega
  have hle : (2 : Rat) ^ (n.log2 : Int) ≤ n := by
    rw [Rat.zpow_natCast]
    have h := Rat.natCast_le_natCast.2 (Nat.log2_self_le hn)
    rwa [Rat.natCast_pow] at h
  unfold binaryExponent
  dsimp only
  rw [hexponent, if_pos hle]

/-- A natural number up to `2 ^ 53` lies on the grid of doubles around it. -/
theorem exists_grid_natCast {n : Nat} (hn : n ≠ 0) (h : n ≤ 2 ^ 53) :
    ∃ z : Int, (n : Rat) = z * spacing n := by
  unfold spacing
  rw [binaryExponent_natCast hn]
  rcases Nat.lt_or_eq_of_le h with hlt | rfl
  · have hlog : n.log2 < 53 := (Nat.log2_lt hn).2 hlt
    have hexponent : Max.max ((n.log2 : Int) - 52) (-1074) = -((52 - n.log2 : Nat) : Int) := by
      omega
    have hpow : (2 : Rat) ^ (52 - n.log2) ≠ 0 := Rat.ne_of_gt (Rat.pow_pos (by decide))
    refine ⟨(n * 2 ^ (52 - n.log2) : Nat), ?_⟩
    rw [hexponent, Rat.zpow_neg, Rat.zpow_natCast, Rat.intCast_natCast, Rat.natCast_mul,
      Rat.natCast_pow, Rat.mul_assoc]
    exact ((congrArg _ (Rat.mul_inv_cancel _ hpow)).trans (Rat.mul_one _)).symm
  · refine ⟨2 ^ 52, ?_⟩
    rw [Nat.log2_two_pow]
    decide +kernel

/-- The bound in natural numbers, as a bound in rational numbers. -/
theorem natCast_lt_pow {n a b : Nat} (h : n ≤ 2 ^ a) (hab : a < b) : (n : Rat) < (2 : Rat) ^ b := by
  have hlt : n < 2 ^ b := Nat.lt_of_le_of_lt h (Nat.pow_lt_pow_right (by decide) hab)
  have hcast := Rat.natCast_lt_natCast.2 hlt
  rwa [Rat.natCast_pow] at hcast

/-- **A whole number up to `2 ^ 53` is exact.** -/
theorem ofNat_eq_finite {n : Nat} (h : n ≤ 2 ^ 53) : ofNat n = finite n := by
  by_cases hn : n = 0
  · subst hn
    rfl
  · obtain ⟨z, hz⟩ := exists_grid_natCast hn h
    have hbound := natCast_lt_pow h (by decide : 53 < 1024)
    refine ofRat_of_grid (z := z) ?_ ?_
    · rw [magnitude_natCast]
      exact hz
    · rw [magnitude_natCast]
      exact hbound

/-- Every natural number is a count. -/
theorem isCount_finite (n : Nat) : (finite n).isCount = true := by
  have hint : (finite n).toInt? = some (n : Int) := by
    rw [toInt?, Rat.den_natCast, Rat.num_natCast]
    rfl
  rw [isCount, toNat?, hint]
  rfl

/-- The counts among the doubles are the natural numbers. -/
theorem isCount_iff {x : Binary64} : x.isCount = true ↔ ∃ n : Nat, x = finite n := by
  constructor
  · intro h
    obtain ⟨n, hn⟩ := Option.isSome_iff_exists.1 h
    unfold toNat? at hn
    split at hn
    · rename_i k hk
      unfold toInt? at hk
      split at hk
      · rename_i q
        split at hk
        · rename_i hden
          have hnum : q.num = (k : Int) := Option.some.inj hk
          have hq : q = (k : Rat) :=
            Rat.ext (hnum.trans (Rat.num_natCast k).symm) (hden.trans (Rat.den_natCast k).symm)
          exact ⟨k, congrArg finite hq⟩
        · cases hk
      · cases hk
    · cases hn
  · rintro ⟨n, rfl⟩
    exact isCount_finite n

/-- A product up to `2 ^ 53` is not rounded. -/
theorem finite_mul_finite {a b : Nat} (h : a * b ≤ 2 ^ 53) :
    finite a * finite b = finite (a * b : Nat) := by
  have hproduct : (a : Rat) * (b : Rat) = (a * b : Nat) := (Rat.natCast_mul a b).symm
  show ofRat (a * b) = _
  rw [hproduct]
  exact ofNat_eq_finite h

/-- Nor is a product of many factors, as long as no product on the way is larger. -/
theorem foldl_mul_finite {factors : List Nat} {p : Nat}
    (h : ∀ k, p * (factors.take k).prod ≤ 2 ^ 53) :
    (factors.map fun n : Nat => finite n).foldl (· * ·) (finite p) =
      finite (p * factors.prod : Nat) := by
  induction factors generalizing p with
  | nil => simp
  | cons n rest ih =>
    have hfirst : p * n ≤ 2 ^ 53 := by simpa using h 1
    have hrest (k : Nat) : p * n * (rest.take k).prod ≤ 2 ^ 53 := by
      simpa [Nat.mul_assoc] using h (k + 1)
    rw [List.map_cons, List.foldl_cons, finite_mul_finite hfirst, ih hrest, List.prod_cons,
      Nat.mul_assoc]

/-- **A product of whole numbers,** none of whose beginnings is too great, is exact. -/
theorem foldl_mul_eq_ofNat {factors : List Nat} (h : ∀ k, (factors.take k).prod ≤ 2 ^ 53) :
    (factors.map fun n : Nat => finite n).foldl (· * ·) 1 = ofNat factors.prod := by
  have hall : factors.prod ≤ 2 ^ 53 := by simpa using h factors.length
  have hone (k : Nat) : 1 * (factors.take k).prod ≤ 2 ^ 53 := by
    rw [Nat.one_mul]
    exact h k
  rw [ofNat_eq_finite hall, ← Nat.one_mul factors.prod]
  exact foldl_mul_finite hone

end Binary64
end FortranExpr
