/-
# Whole numbers as text

A whole number below `10 ^ 21` is written without point and exponent, and its text shows the
digits of a natural number that rounds to it (`exists_text_eq`):

| number | natural number that the digits denote |
| --- | --- |
| up to `2 ^ 53` | the number itself |
| above `2 ^ 53` | the fewest digits that read back, and zeros behind them |

So `2 ^ 60`, which is 1152921504606846976, is written `1152921504606847000`.

The decimal of fewest digits is looked for on grids of finer and finer step.  On the grid of step
1 the whole number is found as it stands, so that no finer step is ever tried.
-/

import FortranExpr.Number.Layout
import FortranExpr.Proofs.Number.Rounded

namespace FortranExpr

/-! ### Digits and zeros behind them -/

theorem toDigits_mul_pow {m : Nat} (hm : 0 < m) (k : Nat) :
    Nat.toDigits 10 (m * 10 ^ k) = Nat.toDigits 10 m ++ List.replicate k '0' := by
  induction k with
  | zero => simp
  | succ k ih =>
    have hpos : 0 < m * 10 ^ k := Nat.mul_pos hm (Nat.pow_pos (by decide))
    have hnext : m * 10 ^ (k + 1) = 10 * (m * 10 ^ k) + 0 := by
      rw [Nat.pow_succ, ← Nat.mul_assoc, Nat.mul_comm, Nat.add_zero]
    have hzero : Nat.toDigits 10 0 = ['0'] := rfl
    rw [hnext, ← Nat.toDigits_append_toDigits (by decide) hpos (by decide), ih, hzero,
      List.append_assoc, List.replicate_succ']

/-- What is taken away with the zeros at the end are zeros. -/
theorem exists_eq_append_replicate (l : List Char) :
    ∃ n, l = (l.reverse.dropWhile (· == '0')).reverse ++ List.replicate n '0' := by
  have hzeros : ∀ c ∈ l.reverse.takeWhile (· == '0'), c = '0' := fun c hc => by
    simpa using List.all_eq_true.1 (List.all_takeWhile (l := l.reverse)) c hc
  have hsplit := congrArg List.reverse
    (List.takeWhile_append_dropWhile (p := (· == '0')) (l := l.reverse))
  rw [List.reverse_append, List.reverse_reverse, List.eq_replicate_of_mem hzeros,
    List.reverse_replicate] at hsplit
  exact ⟨_, hsplit.symm⟩

namespace Decimal

/-- A decimal without places behind the point is written with all of its digits. -/
theorem layoutDigits_toDigits {d : Decimal} {e : Nat} (hd : 0 < d.digits) (he : d.exponent = e)
    (h : d.digits * 10 ^ e < 10 ^ 21) :
    layoutDigits plainRange d.toDigits.1 d.toDigits.2 = Nat.toDigits 10 (d.digits * 10 ^ e) := by
  have hlength := (Nat.length_toDigits_le_iff (b := 10) (by decide) (by decide : 0 < 21)).2 h
  have hpos : 0 < (Nat.toDigits 10 d.digits).length := Nat.length_toDigits_pos
  obtain ⟨z, hz⟩ := exists_eq_append_replicate (Nat.toDigits 10 d.digits)
  rw [toDigits_mul_pow hd] at hlength ⊢
  rw [toDigits, he]
  dsimp only
  generalize ((Nat.toDigits 10 d.digits).reverse.dropWhile (· == '0')).reverse = s at hz ⊢
  rw [hz] at hlength hpos ⊢
  simp only [List.length_append, List.length_replicate] at hlength hpos ⊢
  -- the point stands behind the last zero
  have hpoint : ((s.length + z : Nat) : Int) + (e : Int) = (s.length + (z + e) : Nat) := by omega
  rw [hpoint, layoutDigits, if_pos (by simp only [plainRange]; omega), if_neg (by omega),
    Int.toNat_natCast, List.take_of_length_le (by omega), List.drop_eq_nil_of_le (by omega),
    Nat.add_sub_cancel_left, List.append_assoc, List.replicate_append_replicate]

/-! ### The decimal of fewest digits -/

/-- What is found on a grid reads back, and is one of the two neighbours. -/
theorem onGrid?_eq_some {q : Rat} {e : Int} {d : Decimal} (h : onGrid? q e = some d) :
    d.ReadsBack q ∧ d.exponent = e ∧ d.digits ≤ (q / (10 : Rat) ^ e).floor.toNat + 1 := by
  unfold onGrid? at h
  dsimp only at h
  split at h
  · rename_i hlower
    split at h
    · rename_i hupper
      split at h
      · obtain rfl := Option.some.inj h
        exact ⟨hlower, rfl, Nat.le_succ _⟩
      · split at h
        · obtain rfl := Option.some.inj h
          exact ⟨hupper, rfl, Nat.le_refl _⟩
        · split at h
          · obtain rfl := Option.some.inj h
            exact ⟨hlower, rfl, Nat.le_succ _⟩
          · obtain rfl := Option.some.inj h
            exact ⟨hupper, rfl, Nat.le_refl _⟩
    · obtain rfl := Option.some.inj h
      exact ⟨hlower, rfl, Nat.le_succ _⟩
  · split at h
    · rename_i hupper
      obtain rfl := Option.some.inj h
      exact ⟨hupper, rfl, Nat.le_refl _⟩
    · cases h

/-- A whole number is found on the grid of step 1. -/
theorem onGrid?_zero_ne_none {k : Nat} (hk : Binary64.ofNat k = .finite k) :
    onGrid? k 0 ≠ none := by
  have hscaled : (k : Rat) / (10 : Rat) ^ (0 : Int) = k := by
    have hone : (1 : Rat)⁻¹ = 1 := by decide +kernel
    rw [Rat.zpow_zero, Rat.div_def, hone]
    exact Rat.mul_one _
  have hfloor : ((k : Rat).floor).toNat = k := by
    rw [← Rat.intCast_natCast, Rat.floor_intCast, Int.toNat_natCast]
  have hlower : ReadsBack k ⟨k, 0⟩ := by
    rw [ReadsBack, toRat, Rat.zpow_zero, Rat.mul_one]
    exact hk
  unfold onGrid?
  dsimp only
  rw [hscaled, hfloor, if_pos hlower]
  repeat' split
  all_goals exact Option.some_ne_none _

theorem pointPosition_natCast {k : Nat} (hk : 0 < k) :
    pointPosition k = (Nat.toDigits 10 k).length := by
  have hpos : 0 < (Nat.toDigits 10 k).length := Nat.length_toDigits_pos
  have hone : (Nat.toDigits 10 1).length = 1 := rfl
  have hexponent : ((Nat.toDigits 10 (k : Rat).num.natAbs).length : Int) -
      ((Nat.toDigits 10 (k : Rat).den).length : Int) = ((Nat.toDigits 10 k).length - 1 : Nat) := by
    rw [Rat.num_natCast, Rat.den_natCast, Int.natAbs_natCast, hone]
    omega
  have hle : 10 ^ ((Nat.toDigits 10 k).length - 1) ≤ k := by
    by_cases hdigit : (Nat.toDigits 10 k).length = 1
    · rw [hdigit]
      exact hk
    · rw [← Nat.not_lt, ← Nat.length_toDigits_le_iff (by decide) (by omega)]
      omega
  have hcast : (10 : Rat) ^ (((Nat.toDigits 10 k).length - 1 : Nat) : Int) ≤ k := by
    have h := Rat.natCast_le_natCast.2 hle
    rw [Rat.natCast_pow] at h
    rw [Rat.zpow_natCast]
    exact h
  unfold pointPosition
  dsimp only
  rw [hexponent, if_pos hcast]
  omega

/-- A neighbour of a whole number on a grid has no more digits, unless it is a power of ten. -/
theorem digits_mul_pow_le {k e l : Nat} {d : Decimal} (h : onGrid? k e = some d)
    (hk : k < 10 ^ l) (he : e ≤ l) : d.digits * 10 ^ e ≤ 10 ^ l := by
  have hpow : (0 : Rat) < (10 : Rat) ^ (e : Int) := Rat.zpow_pos (by decide)
  have hfloor : ((k : Rat) / (10 : Rat) ^ (e : Int)).floor.toNat < 10 ^ (l - e) := by
    have hlt : ((k : Rat) / (10 : Rat) ^ (e : Int)).floor < ((10 ^ (l - e) : Nat) : Int) := by
      rw [Rat.floor_lt_iff, Rat.div_lt_iff hpow, Rat.zpow_natCast, Rat.intCast_natCast]
      have hprod : k < 10 ^ (l - e) * 10 ^ e := by
        rwa [← Nat.pow_add, Nat.sub_add_cancel he]
      have hcast := Rat.natCast_lt_natCast.2 hprod
      rw [Rat.natCast_mul, Rat.natCast_pow 10 e] at hcast
      exact hcast
    have hpos : 0 < 10 ^ (l - e) := Nat.pow_pos (by decide)
    omega
  have hdigits : d.digits ≤ 10 ^ (l - e) := Nat.le_trans (onGrid?_eq_some h).2.2 hfloor
  calc d.digits * 10 ^ e ≤ 10 ^ (l - e) * 10 ^ e := Nat.mul_le_mul_right _ hdigits
    _ = 10 ^ l := by rw [← Nat.pow_add, Nat.sub_add_cancel he]

theorem toRat_of_exponent {d : Decimal} {e : Nat} (he : d.exponent = e) :
    d.toRat = (d.digits * 10 ^ e : Nat) := by
  rw [toRat, he, Rat.zpow_natCast, Rat.natCast_mul, Rat.natCast_pow]
  rfl

/-- The first grid with a neighbour is no finer than one on which there is a neighbour. -/
theorem exists_first_onGrid? {q : Rat} {n : Int} {d : Decimal} {count : Nat}
    (h : (List.range count).findSome? (fun j : Nat => onGrid? q (n - (j + 1))) = some d) :
    ∃ j < count, onGrid? q (n - (j + 1)) = some d ∧
      ∀ i < j, onGrid? q (n - (i + 1)) = none := by
  obtain ⟨before, j, after, hsplit, hj, hbefore⟩ := List.findSome?_eq_some_iff.1 h
  have hsorted := List.pairwise_lt_range (n := count)
  have hmem : ∀ i, i < count ↔ i ∈ before ∨ i = j ∨ i ∈ after := fun i => by
    rw [← List.mem_range, hsplit, List.mem_append, List.mem_cons]
  rw [hsplit, List.pairwise_append, List.pairwise_cons] at hsorted
  refine ⟨j, (hmem j).2 (.inr (.inl rfl)), hj, fun i hi => ?_⟩
  rcases (hmem i).1 (Nat.lt_trans hi ((hmem j).2 (.inr (.inl rfl)))) with hi' | rfl | hi'
  · exact hbefore i hi'
  · exact absurd hi (Nat.lt_irrefl i)
  · exact absurd (hsorted.2.1.1 i hi') (Nat.lt_asymm hi)

/-- The first grid with a neighbour of a whole number of `l` digits has whole steps: the grid of
step 1 is tried before any finer one. -/
theorem exists_onGrid?_natCast {k l count : Nat} {d : Decimal} (hl : 0 < l)
    (hk : Binary64.ofNat k = .finite k)
    (h : (List.range count).findSome? (fun j : Nat => onGrid? k ((l : Int) - (j + 1))) = some d) :
    ∃ e : Nat, e ≤ l ∧ onGrid? k e = some d := by
  obtain ⟨j, -, hd, hfirst⟩ := exists_first_onGrid? h
  have hjl : j < l := by
    by_contra hle
    have hgrid : (l : Int) - ((l - 1 : Nat) + 1) = 0 := by omega
    have hnone := hfirst (l - 1) (by omega)
    rw [hgrid] at hnone
    exact onGrid?_zero_ne_none hk hnone
  have hstep : (l : Int) - (j + 1) = (l - (j + 1) : Nat) := by omega
  rw [hstep] at hd
  exact ⟨l - (j + 1), Nat.sub_le _ _, hd⟩

/-- The neighbour that is found rounds to the number, so it is neither zero nor `10 ^ 21`. -/
theorem onGrid?_natCast {k e l : Nat} {d : Decimal} (h : onGrid? k e = some d) (hpos : 0 < k)
    (hkl : k < 10 ^ l) (hel : e ≤ l) (hl : l ≤ 21) (hlt : k < 10 ^ 21) :
    d.exponent = e ∧ 0 < d.digits ∧ d.digits * 10 ^ e < 10 ^ 21 ∧
      Binary64.ofNat (d.digits * 10 ^ e) = .finite k := by
  obtain ⟨hreads, hexponent, -⟩ := onGrid?_eq_some h
  have hvalue : Binary64.ofNat (d.digits * 10 ^ e) = .finite k := by
    rw [ReadsBack, toRat_of_exponent hexponent] at hreads
    exact hreads
  have hne (n : Nat) (hn : Binary64.ofNat n = .finite n) (hnk : n ≠ k) :
      d.digits * 10 ^ e ≠ n := by
    rintro rfl
    rw [hn] at hvalue
    exact hnk (Rat.natCast_inj.1 (Binary64.finite.inj hvalue))
  have hle : d.digits * 10 ^ e ≤ 10 ^ 21 :=
    Nat.le_trans (digits_mul_pow_le h hkl hel) (Nat.pow_le_pow_right (by decide) hl)
  have htop : d.digits * 10 ^ e ≠ 10 ^ 21 :=
    hne (10 ^ 21) (by decide +kernel) (Nat.ne_of_gt hlt)
  have hzero : d.digits * 10 ^ e ≠ 0 := hne 0 rfl (Nat.ne_of_lt hpos)
  have hdigits : 0 < d.digits :=
    Nat.pos_of_ne_zero fun hdigits => hzero (by rw [hdigits, Nat.zero_mul])
  exact ⟨hexponent, hdigits, Nat.lt_of_le_of_ne hle htop, hvalue⟩

theorem exact_natCast (k : Nat) : exact k = ⟨k, 0⟩ := by
  have hlog : Nat.log2 1 = 0 := by decide
  rw [exact, Rat.den_natCast, Rat.num_natCast, Int.natAbs_natCast, hlog]
  exact congrArg (fun n => (⟨n, 0⟩ : Decimal)) (Nat.mul_one k)

/-- **The decimal of fewest digits of a whole number** is whole, and rounds to it. -/
theorem shortest_natCast {k : Nat} (hpos : 0 < k) (hlt : k < 10 ^ 21)
    (hk : Binary64.ofNat k = .finite k) : ∃ e : Nat, (shortest k).exponent = e ∧
      0 < (shortest k).digits ∧ (shortest k).digits * 10 ^ e < 10 ^ 21 ∧
      Binary64.ofNat ((shortest k).digits * 10 ^ e) = .finite k := by
  obtain ⟨l, hl⟩ : ∃ l, l = (Nat.toDigits 10 k).length := ⟨_, rfl⟩
  have hlpos : 0 < l := hl ▸ Nat.length_toDigits_pos
  have hkl : k < 10 ^ l :=
    (Nat.length_toDigits_le_iff (by decide) hlpos).1 (Nat.le_of_eq hl.symm)
  have hl21 : l ≤ 21 := hl ▸ (Nat.length_toDigits_le_iff (by decide) (by decide)).2 hlt
  have hshortest : shortest k =
      ((List.range 17).findSome? fun j : Nat => onGrid? k ((l : Int) - (j + 1))).getD (exact k) := by
    rw [shortest, pointPosition_natCast hpos, ← hl]
  cases hfind : (List.range 17).findSome? fun j : Nat => onGrid? k ((l : Int) - (j + 1)) with
  | none =>
    rw [hshortest, hfind, Option.getD_none, exact_natCast]
    refine ⟨0, rfl, hpos, ?_, ?_⟩
    · rwa [Nat.pow_zero, Nat.mul_one]
    · rwa [Nat.pow_zero, Nat.mul_one]
  | some d =>
    obtain ⟨e, hel, hd⟩ := exists_onGrid?_natCast hlpos hk hfind
    rw [hshortest, hfind, Option.getD_some]
    exact ⟨e, onGrid?_natCast hd hpos hkl hel hl21 hlt⟩

end Decimal

/-! ### The text of a whole number -/

namespace Binary64

/-- **The text of a whole number** below `10 ^ 21` shows the digits of a natural number that
rounds to it, and that is the number itself up to `2 ^ 53`. -/
theorem exists_text_eq {k : Nat} (hlt : k < 10 ^ 21) (hk : ofNat k = finite k) :
    ∃ n, (finite k).text = String.ofList (Nat.toDigits 10 n) ∧ ofNat n = finite k ∧
      (k ≤ 2 ^ 53 → n = k) := by
  rcases Nat.eq_zero_or_pos k with rfl | hpos
  · exact ⟨0, by decide +kernel, rfl, fun _ => rfl⟩
  · obtain ⟨e, he, hdigits, hbound, hvalue⟩ := Decimal.shortest_natCast hpos hlt hk
    refine ⟨(Decimal.shortest k).digits * 10 ^ e, ?_, hvalue, fun hle => ?_⟩
    · have hzero : ¬(k : Rat) = 0 := fun h0 => Nat.ne_of_gt hpos (Rat.natCast_eq_zero_iff.1 h0)
      have hsign : ¬(k : Rat) < 0 := Rat.not_lt.2 Rat.natCast_nonneg
      rw [text, if_neg hzero, magnitude_natCast]
      dsimp only
      rw [Decimal.layoutDigits_toDigits hdigits he hbound, if_neg hsign]
    · rcases Nat.lt_or_eq_of_le hle with hsmall | rfl
      · exact eq_of_ofNat_eq_finite hvalue hsmall
      · -- `2 ^ 53 + 1` rounds to `2 ^ 53` as well, but it is not what is found
        have hfound : Decimal.shortest ((2 ^ 53 : Nat) : Rat) = ⟨2 ^ 53, 0⟩ := by decide +kernel
        rw [hfound] at he ⊢
        obtain rfl : e = 0 := by
          have : (0 : Int) = e := he
          omega
        rfl

end Binary64
end FortranExpr
