/-
# Sections without gaps

`contiguousRank?` scans the subscripts of a section from the last to the first and keeps
nothing but the number of triplets so far.  What the section selects in an array is a
relation, for the bounds and the scalar subscripts may have any value:

| relation | meaning |
| --- | --- |
| `Slot.Bound` | the value of a bound, that of the dimension when it is left out |
| `Slot.Step` | the value of a stride, 1 when it is left out |
| `Subscript.Selects` | the indices that a subscript selects in its dimension |
| `Subscript.Selection` | the indices that the subscripts select, dimension by dimension |
| `Subscript.Extends` | what one step of the scan accepts |

Each step of the scan keeps the offsets of the selected elements consecutive
(`Extends.consecutive`), and so the whole scan does.
-/

import FortranExpr.Analysis.Contiguity
import FortranExpr.Proofs.Analysis.Storage
import FortranExpr.Proofs.Expr.Literal

namespace FortranExpr

/-- The value of a bound: the default when it is left out, and any value otherwise. -/
inductive Slot.Bound (default : Int) : Slot Symbol → Int → Prop
  | omitted : Bound default .empty default
  | given (e : Expr Symbol) (k : Int) : Bound default (.filled e) k

/-- The value of a stride: 1 when it is left out, that of an integer literal, and any value
when it has to be computed. -/
inductive Slot.Step : Slot Symbol → Int → Prop
  | omitted : Step .empty 1
  | literal {e : Expr Symbol} {k : Int} : e.IsIntegerLiteral k → Step (.filled e) k
  | computed {e : Expr Symbol} (k : Int) : (∀ n, ¬e.IsIntegerLiteral n) → Step (.filled e) k

/-- How many indices `first:last:step` selects. -/
def tripletCount (first last step : Int) : Nat := ((last - first + step).tdiv step).toNat

namespace Subscript

/-- The subscript is a section of its dimension. -/
def isTriplet : Subscript Symbol → Bool
  | .triplet _ => true
  | .element _ => false

/-- The indices that a subscript selects in a dimension, all of them in bounds. -/
inductive Selects (d : Dimension) : Subscript Symbol → List Int → Prop
  | scalar {e : Expr Symbol} {k : Int} :
      e.rank.isPositive = false → d.Contains k → Selects d (.element e) [k]
  | vector {e : Expr Symbol} {ks : List Int} :
      e.rank.isPositive = true → (∀ k ∈ ks, d.Contains k) → Selects d (.element e) ks
  | triplet {t : Triplet Symbol} {first last step : Int} :
      t.lower.Bound d.lower first → t.upper.Bound d.upper last → t.stride.Step step →
      (∀ k ∈ progression first step (tripletCount first last step), d.Contains k) →
      Selects d (.triplet t) (progression first step (tripletCount first last step))

/-- The indices that the subscripts of a section select in an array, one subscript for
each dimension. -/
inductive Selection : List Dimension → List (Subscript Symbol) → List (List Int) → Prop
  | nil : Selection [] [] []
  | cons {d dims s subs ks indices} : s.Selects d ks → Selection dims subs indices →
      Selection (d :: dims) (s :: subs) (ks :: indices)

end Subscript

namespace Triplet

variable {t : Triplet Symbol}

/-- A unit stride has no other value than 1. -/
theorem step_eq_one (h : t.isUnitStride = true) {step : Int} (hstep : t.stride.Step step) :
    step = 1 := by
  unfold isUnitStride at h
  cases hs : t.stride with
  | empty =>
    rw [hs] at hstep
    cases hstep
    rfl
  | filled e =>
    simp only [hs, decide_eq_true_eq] at h
    rw [hs] at hstep
    cases hstep with
    | literal hlit =>
      rw [Expr.integerValue?_eq_some_iff.2 hlit] at h
      exact Option.some.inj h
    | computed _ hnone => exact absurd (Expr.integerValue?_eq_some_iff.1 h) (hnone 1)

theorem isUnbounded_iff : t.isUnbounded = true ↔ t.lower = .empty ∧ t.upper = .empty := by
  unfold isUnbounded
  cases t.lower <;> cases t.upper <;> simp

/-- A bare `:` selects the whole dimension. -/
theorem selects_whole {d : Dimension} {ks : List Int} (hstride : t.isUnitStride = true)
    (hbounds : t.isUnbounded = true) (h : Subscript.Selects d (.triplet t) ks) :
    ks = progression d.lower 1 d.extent := by
  obtain ⟨hlower, hupper⟩ := isUnbounded_iff.1 hbounds
  cases h with
  | triplet hfirst hlast hstep _ =>
    obtain rfl := step_eq_one hstride hstep
    rw [hlower] at hfirst
    rw [hupper] at hlast
    cases hfirst
    cases hlast
    have hcount : d.upper - d.lower + 1 = d.extent := by
      unfold Dimension.upper
      omega
    rw [tripletCount, hcount, Int.tdiv_one, Int.toNat_natCast]

/-- A section of unit stride selects consecutive indices. -/
theorem selects_consecutive {d : Dimension} {ks : List Int} (hstride : t.isUnitStride = true)
    (h : Subscript.Selects d (.triplet t) ks) : ∃ first n, ks = progression first 1 n := by
  cases h with
  | triplet _ _ hstep _ =>
    obtain rfl := step_eq_one hstride hstep
    exact ⟨_, _, rfl⟩

end Triplet

namespace Subscript

/-- `s.Extends m r`: in front of subscripts with `m` triplets the scan accepts `s`, and has
seen `r` triplets then. -/
inductive Extends : Subscript Symbol → (m r : Nat) → Prop
  | element {e : Expr Symbol} : e.rank.isPositive = false → Extends (.element e) 0 0
  | last {t : Triplet Symbol} : t.isUnitStride = true → Extends (.triplet t) 0 1
  | whole {t : Triplet Symbol} {m : Nat} : t.isUnitStride = true → t.isUnbounded = true →
      Extends (.triplet t) m (m + 1)

theorem scanContiguous?_append (m : Nat) (first second : List (Subscript Symbol)) :
    scanContiguous? m (first ++ second) =
      (scanContiguous? m first).bind fun k => scanContiguous? k second := by
  induction first generalizing m with
  | nil => rfl
  | cons s first ih =>
    cases s with
    | triplet t =>
      rw [List.cons_append, scanContiguous?, scanContiguous?]
      split
      · exact ih (m + 1)
      · rfl
    | element e =>
      rw [List.cons_append, scanContiguous?, scanContiguous?]
      split
      · rfl
      · exact ih m

theorem scanContiguous?_singleton {s : Subscript Symbol} {m r : Nat} :
    scanContiguous? m [s] = some r ↔ s.Extends m r := by
  constructor
  · intro h
    cases s with
    | triplet t =>
      simp only [scanContiguous?] at h
      split at h
      · rename_i hcond
        obtain rfl := Option.some.inj h
        obtain ⟨hstride, hm⟩ := (Bool.and_eq_true _ _).mp hcond
        rcases (Bool.or_eq_true _ _).mp hm with hzero | hbounds
        · obtain rfl := eq_of_beq hzero
          exact .last hstride
        · exact .whole hstride hbounds
      · cases h
    | element e =>
      simp only [scanContiguous?] at h
      split at h
      · cases h
      · rename_i hcond
        obtain rfl := Option.some.inj h
        obtain ⟨hm, hrank⟩ := Bool.or_eq_false_iff.1 (Bool.eq_false_iff.2 hcond)
        obtain rfl : m = 0 := by simpa using hm
        exact .element hrank
  · intro h
    cases h with
    | element hrank => simp [scanContiguous?, hrank]
    | last hstride => simp [scanContiguous?, hstride]
    | whole hstride hbounds => simp [scanContiguous?, hstride, hbounds]

/-- The scan ends with the first subscript: the others are accepted, and it extends them. -/
theorem contiguousRank?_cons_eq_some_iff {s : Subscript Symbol} {subs : List (Subscript Symbol)}
    {r : Nat} :
    contiguousRank? (s :: subs) = some r ↔
      ∃ m, contiguousRank? subs = some m ∧ s.Extends m r := by
  unfold contiguousRank?
  rw [List.reverse_cons, scanContiguous?_append, Option.bind_eq_some_iff]
  simp only [scanContiguous?_singleton]

/-- The offsets of the selected elements are consecutive, and without a triplet there is
one of them. -/
def Consecutive (dims : List Dimension) (indices : List (List Int)) (m : Nat) : Prop :=
  ∃ o n, (elementOrder indices).map (offset dims) = progression o 1 n ∧ (m = 0 → n = 1)

/-- **One step of the scan opens no gap.** -/
theorem Extends.consecutive {s : Subscript Symbol} {m r : Nat} (h : s.Extends m r)
    {d : Dimension} {dims : List Dimension} {ks : List Int} {indices : List (List Int)}
    (hs : s.Selects d ks) (hrest : Consecutive dims indices m) :
    Consecutive (d :: dims) (ks :: indices) r := by
  obtain ⟨o, n, hoffsets, hn⟩ := hrest
  -- behind an element, and behind the last triplet, stands a single element of the array;
  -- only a whole dimension may stand in front of more than one
  cases h with
  | element hrank =>
    obtain rfl := hn rfl
    cases hs with
    | scalar _ _ => exact ⟨_, 1, offset_elementOrder_single d _ 1 hoffsets, fun _ => rfl⟩
    | vector hvector _ => exact absurd (hrank.symm.trans hvector) Bool.false_ne_true
  | last hstride =>
    obtain rfl := hn rfl
    obtain ⟨first, k, rfl⟩ := Triplet.selects_consecutive hstride hs
    exact ⟨_, k, offset_elementOrder_single d first k hoffsets, fun h => absurd h (by omega)⟩
  | whole hstride hbounds =>
    obtain rfl := Triplet.selects_whole hstride hbounds hs
    exact ⟨_, _, offset_elementOrder_full d hoffsets, fun h => absurd h (by omega)⟩

/-- The scan opens no gap: the elements of a section that it accepts are consecutive in
storage. -/
theorem consecutive_of_contiguousRank? {subs : List (Subscript Symbol)} {r : Nat}
    (h : contiguousRank? subs = some r) {dims : List Dimension} {indices : List (List Int)}
    (hsel : Selection dims subs indices) : Consecutive dims indices r := by
  induction hsel generalizing r with
  | nil => exact ⟨0, 1, rfl, fun _ => rfl⟩
  | cons hs _ ih =>
    obtain ⟨m, hm, hext⟩ := contiguousRank?_cons_eq_some_iff.1 h
    exact hext.consecutive hs (ih hm)

/-- The scan counts the triplets. -/
theorem countP_isTriplet_of_contiguousRank? {subs : List (Subscript Symbol)} {r : Nat}
    (h : contiguousRank? subs = some r) : subs.countP isTriplet = r := by
  induction subs generalizing r with
  | nil => exact Option.some.inj h
  | cons s subs ih =>
    obtain ⟨m, hm, hext⟩ := contiguousRank?_cons_eq_some_iff.1 h
    have hcount := ih hm
    cases hext with
    | element _ => rw [List.countP_cons, hcount]; rfl
    | last _ | whole _ _ => rw [List.countP_cons, hcount]; rfl

/-- **An accepted section has no gaps in storage.**  Whatever array it is taken from and
whatever values its scalar subscripts and bounds have, the offsets of its elements in
array element order are consecutive; and as many dimensions as `contiguousRank?` says are
selected by triplets. -/
theorem offsets_consecutive_of_contiguousRank? {subs : List (Subscript Symbol)} {r : Nat}
    (h : contiguousRank? subs = some r) :
    subs.countP isTriplet = r ∧
      ∀ dims indices, Selection dims subs indices →
        ∃ o n, (elementOrder indices).map (offset dims) = progression o 1 n := by
  refine ⟨countP_isTriplet_of_contiguousRank? h, fun dims indices hsel => ?_⟩
  obtain ⟨o, n, hoffsets, _⟩ := consecutive_of_contiguousRank? h hsel
  exact ⟨o, n, hoffsets⟩

/-- The section `(:, 2:3, 1)`. -/
def twoColumns : List (Subscript Symbol) :=
  [.triplet ⟨.empty, .empty, .empty⟩,
    .triplet ⟨.filled (.constant ⟨.integer, [.integer 2], []⟩),
      .filled (.constant ⟨.integer, [.integer 3], []⟩), .empty⟩,
    .element (.constant ⟨.integer, [.integer 1], []⟩)]

/-- The section `(:, 2:3, 1)` of an array `(4, 0:4, 2)` has no gaps in storage. -/
theorem offsets_consecutive_twoColumns :
    contiguousRank? twoColumns = some 2 ∧ twoColumns.countP isTriplet = 2 ∧
      ∃ o n, (elementOrder [[1, 2, 3, 4], [2, 3], [1]]).map
        (offset [⟨1, 4⟩, ⟨0, 5⟩, ⟨1, 2⟩]) = progression o 1 n := by
  have hrank (c : Constant) (hc : c.shape = []) :
      (Expr.constant c : Expr Symbol).rank.isPositive = false := by
    rw [Expr.rank, hc]
    decide
  have h : contiguousRank? twoColumns = some 2 :=
    contiguousRank?_cons_eq_some_iff.2 ⟨1, contiguousRank?_cons_eq_some_iff.2
      ⟨0, contiguousRank?_cons_eq_some_iff.2 ⟨0, rfl, .element (hrank _ rfl)⟩, .last rfl⟩,
      .whole rfl rfl⟩
  have hsel : Selection [⟨1, 4⟩, ⟨0, 5⟩, ⟨1, 2⟩] twoColumns [[1, 2, 3, 4], [2, 3], [1]] := by
    have hwhole : ∀ k ∈ progression 1 1 (tripletCount 1 4 1), Dimension.Contains ⟨1, 4⟩ k := by
      decide
    have hbounds : ∀ k ∈ progression 2 1 (tripletCount 2 3 1), Dimension.Contains ⟨0, 5⟩ k := by
      decide
    exact .cons (.triplet .omitted .omitted .omitted hwhole)
      (.cons (.triplet (.given _ 2) (.given _ 3) .omitted hbounds)
        (.cons (.scalar (hrank _ rfl) (by decide)) .nil))
  obtain ⟨hcount, hoffsets⟩ := offsets_consecutive_of_contiguousRank? h
  exact ⟨h, hcount, hoffsets _ _ hsel⟩

end Subscript
end FortranExpr
