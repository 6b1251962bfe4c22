/-
# The form of a section without gaps

`contiguousRank?` scans subscripts from the last to the first.  Read in the order of the source,
what it accepts has one form (`Subscript.IsGapless`):

| first | then |
| --- | --- |
| sections of unit stride, of which only the last may have bounds | elements that are no vectors |

So `a(:, 2:3, 1)` is accepted, and neither `a(2:3, :)` nor `a(1, :)` is.

An element that is no vector has rank 0, unless its rank is negative or no number at all.  Where
no rank is, the ranks of accepted subscripts add up to the number of sections, which is the rank
that the scan gives.  Ranks are added in double precision, and a sum of ones goes up to `2 ^ 53`
and no further.
-/

import FortranExpr.Proofs.Analysis.VariableContiguity
import FortranExpr.Proofs.Number.Exact

namespace FortranExpr

/-! ### Adding ranks -/

namespace Binary64

/-- A number that is neither above nor below zero is zero. -/
theorem eq_zero_of_lessEq {x : Binary64} (hlow : lessEq 0 x = true) (hhigh : x.isPositive = false) :
    x = 0 := by
  cases x with
  | nan => cases hlow
  | infinity negative =>
    cases negative with
    | true => cases hlow
    | false => cases hhigh
  | finite q =>
    have hle : 0 ≤ q := of_decide_eq_true hlow
    have hge : q ≤ 0 := Rat.not_lt.1 (of_decide_eq_false hhigh)
    exact congrArg finite (Rat.le_antisymm hge hle)

/-- Counting by ones ends at `2 ^ 53`. -/
theorem finite_min_add_one (n : Nat) :
    finite (min n (2 ^ 53) : Nat) + 1 = finite (min (n + 1) (2 ^ 53) : Nat) := by
  by_cases h : n + 1 ≤ 2 ^ 53
  · rw [Nat.min_eq_left (Nat.le_of_succ_le h), Nat.min_eq_left h, ← ofNat_eq_finite h]
    show ofRat ((n : Rat) + 1) = ofRat ((n + 1 : Nat) : Rat)
    rw [Rat.natCast_add]
    rfl
  · have hn : 2 ^ 53 ≤ n := by omega
    rw [Nat.min_eq_right hn, Nat.min_eq_right (Nat.le_succ_of_le hn)]
    -- `2 ^ 53 + 1` lies between two neighbours, and the even one is below
    show ofRat (((2 ^ 53 : Nat) : Rat) + 1) = finite (2 ^ 53 : Nat)
    decide +kernel

theorem finite_min_add_zero (n : Nat) :
    finite (min n (2 ^ 53) : Nat) + 0 = finite (min n (2 ^ 53) : Nat) := by
  have hle : min n (2 ^ 53) ≤ 2 ^ 53 := Nat.min_le_right n (2 ^ 53)
  show ofRat (((min n (2 ^ 53) : Nat) : Rat) + 0) = _
  rw [Rat.add_zero]
  exact ofNat_eq_finite hle

end Binary64

namespace Triplet

/-- A unit stride is left out, or is the literal 1. -/
theorem isUnitStride_iff {t : Triplet Symbol} : t.isUnitStride = true ↔
    t.stride = .empty ∨ ∃ e, t.stride = .filled e ∧ e.IsIntegerLiteral 1 := by
  unfold isUnitStride
  cases t.stride with
  | empty => simp
  | filled e => simp [Expr.integerValue?_eq_some_iff]

end Triplet

namespace Subscript

/-! ### The form that the scan accepts -/

/-- Sections of unit stride, of which only the last may have bounds, and elements that are no
vectors. -/
structure IsGapless (sections : List (Triplet Symbol)) (elements : List (Expr Symbol)) :
    Prop where
  strides : ∀ t ∈ sections, t.stride = .empty ∨ ∃ e, t.stride = .filled e ∧ e.IsIntegerLiteral 1
  bounds : ∀ t ∈ sections.dropLast, t.lower = .empty ∧ t.upper = .empty
  ranks : ∀ e ∈ elements, e.rank.isPositive = false

/-- The sections in front, and the elements behind them. -/
def ofParts (sections : List (Triplet Symbol)) (elements : List (Expr Symbol)) :
    List (Subscript Symbol) :=
  sections.map .triplet ++ elements.map .element

variable {sections : List (Triplet Symbol)} {elements : List (Expr Symbol)}

/-- The sections of the form allow one more in front of them. -/
theorem IsGapless.cons {t : Triplet Symbol} (h : IsGapless sections elements)
    (hstride : t.isUnitStride = true) (hbounds : sections ≠ [] → t.isUnbounded = true) :
    IsGapless (t :: sections) elements where
  strides u hu := by
    rcases List.mem_cons.1 hu with rfl | hu
    · exact Triplet.isUnitStride_iff.1 hstride
    · exact h.strides u hu
  bounds u hu := by
    cases sections with
    | nil => cases hu
    | cons t' rest =>
      rcases List.mem_cons.1 hu with rfl | hu
      · exact Triplet.isUnbounded_iff.1 (hbounds (List.cons_ne_nil _ _))
      · exact h.bounds u hu
  ranks := h.ranks

theorem IsGapless.of_cons {t : Triplet Symbol} (h : IsGapless (t :: sections) elements) :
    t.isUnitStride = true ∧ (sections ≠ [] → t.isUnbounded = true) ∧
      IsGapless sections elements := by
  refine ⟨Triplet.isUnitStride_iff.2 (h.strides t List.mem_cons_self), fun hne => ?_, ?_⟩
  · refine Triplet.isUnbounded_iff.2 (h.bounds t ?_)
    rw [List.dropLast_cons_of_ne_nil hne]
    exact List.mem_cons_self
  · refine ⟨fun u hu => h.strides u (List.mem_cons_of_mem t hu), fun u hu => h.bounds u ?_, h.ranks⟩
    rw [List.dropLast_cons_of_ne_nil (List.ne_nil_of_mem (List.dropLast_subset _ hu))]
    exact List.mem_cons_of_mem t hu

/-- What the scan accepts has the form. -/
theorem exists_isGapless {subs : List (Subscript Symbol)} {r : Nat}
    (h : contiguousRank? subs = some r) : ∃ sections elements,
      subs = ofParts sections elements ∧ IsGapless sections elements ∧ r = sections.length := by
  induction subs generalizing r with
  | nil =>
    obtain rfl := Option.some.inj h
    exact ⟨[], [], rfl, ⟨nofun, nofun, nofun⟩, rfl⟩
  | cons s subs ih =>
    obtain ⟨m, hm, hext⟩ := contiguousRank?_cons_eq_some_iff.1 h
    obtain ⟨sections, elements, rfl, hform, rfl⟩ := ih hm
    -- an element is put in front of elements only, and bounds in front of no section
    generalize hcount : sections.length = m at hext
    cases hext with
    | @element e hrank =>
      obtain rfl := List.eq_nil_of_length_eq_zero hcount
      refine ⟨[], e :: elements, rfl, ⟨nofun, nofun, fun e' he' => ?_⟩, rfl⟩
      rcases List.mem_cons.1 he' with rfl | he'
      · exact hrank
      · exact hform.ranks e' he'
    | @last t hstride =>
      obtain rfl := List.eq_nil_of_length_eq_zero hcount
      exact ⟨[t], elements, rfl, hform.cons hstride fun hne => absurd rfl hne, rfl⟩
    | @whole t _ hstride hbounds =>
      exact ⟨t :: sections, elements, rfl, hform.cons hstride fun _ => hbounds,
        by rw [List.length_cons, hcount]⟩

theorem contiguousRank?_map_element (h : ∀ e ∈ elements, e.rank.isPositive = false) :
    contiguousRank? (elements.map .element) = some 0 := by
  induction elements with
  | nil => rfl
  | cons e rest ih =>
    have hrest := ih fun e' he' => h e' (List.mem_cons_of_mem e he')
    exact contiguousRank?_cons_eq_some_iff.2 ⟨0, hrest, .element (h e List.mem_cons_self)⟩

/-- The scan accepts what has the form, and counts the sections. -/
theorem contiguousRank?_ofParts (h : IsGapless sections elements) :
    contiguousRank? (ofParts sections elements) = some sections.length := by
  induction sections with
  | nil => exact contiguousRank?_map_element h.ranks
  | cons t rest ih =>
    obtain ⟨hstride, hbounds, hrest⟩ := h.of_cons
    refine contiguousRank?_cons_eq_some_iff.2 ⟨rest.length, ih hrest, ?_⟩
    by_cases hne : rest = []
    · subst hne
      exact .last hstride
    · exact .whole hstride (hbounds hne)

/-- **The scan accepts exactly this form.** -/
theorem contiguousRank?_eq_some_iff_isGapless {subs : List (Subscript Symbol)} {r : Nat} :
    contiguousRank? subs = some r ↔ ∃ sections elements,
      subs = ofParts sections elements ∧ IsGapless sections elements ∧ r = sections.length := by
  constructor
  · exact exists_isGapless
  · rintro ⟨sections, elements, rfl, hform, rfl⟩
    exact contiguousRank?_ofParts hform

/-! ### The rank of a section -/

/-- The ranks of the subscripts together. -/
def totalRank (subs : List (Subscript Symbol)) : Binary64 :=
  (subs.map fun s => s.rank).foldl (· + ·) 0

/-- No subscript has a negative rank, or one that is no number. -/
def RanksNonneg (subs : List (Subscript Symbol)) : Prop :=
  ∀ s ∈ subs, Binary64.lessEq 0 s.rank = true

theorem foldl_rank_sections (n : Nat) (sections : List (Triplet Symbol)) :
    ((sections.map .triplet).map fun s : Subscript Symbol => s.rank).foldl (· + ·)
        (.finite (min n (2 ^ 53) : Nat)) =
      .finite (min (n + sections.length) (2 ^ 53) : Nat) := by
  induction sections generalizing n with
  | nil => rfl
  | cons t rest ih =>
    rw [List.map_cons, List.map_cons, List.foldl_cons, Subscript.rank, Binary64.finite_min_add_one,
      ih, List.length_cons, Nat.add_assoc, Nat.add_comm 1]

theorem foldl_rank_elements (n : Nat) (h : ∀ e ∈ elements, e.rank = 0) :
    ((elements.map .element).map fun s : Subscript Symbol => s.rank).foldl (· + ·)
        (.finite (min n (2 ^ 53) : Nat)) = .finite (min n (2 ^ 53) : Nat) := by
  induction elements with
  | nil => rfl
  | cons e rest ih =>
    rw [List.map_cons, List.map_cons, List.foldl_cons, Subscript.rank, h e List.mem_cons_self,
      Binary64.finite_min_add_zero]
    exact ih fun e' he' => h e' (List.mem_cons_of_mem e he')

/-- **Accepted subscripts have the rank that the scan gives,** as far as ones can be added up. -/
theorem totalRank_of_contiguousRank? {subs : List (Subscript Symbol)} {r : Nat}
    (h : contiguousRank? subs = some r) (hranks : RanksNonneg subs) :
    totalRank subs = .finite (min r (2 ^ 53) : Nat) := by
  obtain ⟨sections, elements, rfl, hform, rfl⟩ := exists_isGapless h
  have hzero : ∀ e ∈ elements, e.rank = 0 := fun e he => by
    have hlow := hranks (.element e) (List.mem_append_right _ (List.mem_map_of_mem he))
    rw [Subscript.rank] at hlow
    exact Binary64.eq_zero_of_lessEq hlow (hform.ranks e he)
  have hsections := foldl_rank_sections 0 sections
  rw [Nat.zero_add] at hsections
  have hstart : (.finite (min 0 (2 ^ 53) : Nat) : Binary64) = 0 := by decide +kernel
  rw [hstart] at hsections
  rw [totalRank, ofParts, List.map_append, List.foldl_append, hsections,
    foldl_rank_elements sections.length hzero]

end Subscript

/-- What is subscripted is a name, or a component of a scalar. -/
def DataRef.IsOfScalar : DataRef Symbol → Prop
  | .symbol _ => True
  | .component base _ => base.rank = 0

namespace Expr

theorem rank_arrayRef_of_isOfScalar {base : DataRef Symbol} (h : base.IsOfScalar)
    (subs : List (Subscript Symbol)) : (arrayRef base subs).rank = Subscript.totalRank subs := by
  cases base with
  | symbol s => rw [rank, Subscript.totalRank]
  | component object c =>
    have hbase : object.rank = 0 := h
    rw [rank, hbase]
    rfl

end Expr

namespace Subscript

/-- **A grammar of the subscripts that are accepted,** and what it says of ranks.  The scan
accepts sections of unit stride, only the last of them with bounds, and behind them elements that
are no vectors; the result is the number of sections.  Where no rank is negative, this is the
rank of the subscripts together, and a reference to an array of a name, or of a component of a
scalar, is contiguous exactly when the last name is and the subscripts are accepted. -/
theorem contiguousRank?_grammar (subs : List (Subscript Symbol)) :
    (∀ r, contiguousRank? subs = some r ↔ ∃ sections elements,
      subs = sections.map .triplet ++ elements.map .element ∧ IsGapless sections elements ∧
        r = sections.length) ∧
    (RanksNonneg subs →
      (∀ r, contiguousRank? subs = some r → totalRank subs = .finite (min r (2 ^ 53) : Nat)) ∧
      ∀ (base : DataRef Symbol) (table : IntrinsicTable), base.IsOfScalar →
        (Expr.arrayRef base subs).contiguous? table =
          some (base.lastSymbol.isContiguous && (contiguousRank? subs).isSome)) := by
  refine ⟨fun r => contiguousRank?_eq_some_iff_isGapless, fun hranks => ⟨fun r h => ?_, ?_⟩⟩
  · exact totalRank_of_contiguousRank? h hranks
  · intro base table hbase
    rw [Expr.contiguous?_arrayRef, Expr.isContiguousRef, Expr.rank_arrayRef_of_isOfScalar hbase]
    cases h : contiguousRank? subs with
    | none => rfl
    | some r =>
      -- a rank of zero is no array, and a positive one is not looked at
      have htotal := totalRank_of_contiguousRank? h hranks
      cases r with
      | zero =>
        have hzero : totalRank subs = 0 := htotal
        rw [hzero]
        rfl
      | succ n => simp

/-- An array of three dimensions. -/
def cube : Symbol := ⟨0, "a", .global, .object ⟨.finite 3, 0, .explicit, false, none, none⟩, []⟩

/-- The section `a(:, 2:3, 1)` is of the form, has rank 2 and is contiguous. -/
theorem contiguousRank?_grammar_twoColumns :
    RanksNonneg twoColumns ∧ contiguousRank? twoColumns = some 2 ∧
      totalRank twoColumns = .finite 2 ∧ (DataRef.symbol cube).IsOfScalar ∧
      (Expr.arrayRef (.symbol cube) twoColumns).contiguous? ∅ = some true := by
  have hranks : RanksNonneg twoColumns := by
    rw [RanksNonneg, twoColumns]
    decide +kernel
  have hform : IsGapless [⟨.empty, .empty, .empty⟩,
      ⟨.filled (.constant ⟨.integer, [.integer 2], []⟩),
        .filled (.constant ⟨.integer, [.integer 3], []⟩), .empty⟩]
      [.constant ⟨.integer, [.integer 1], []⟩] :=
    ⟨by simp, by simp, by decide +kernel⟩
  obtain ⟨hgrammar, hrest⟩ := contiguousRank?_grammar twoColumns
  obtain ⟨htotal, hverdict⟩ := hrest hranks
  have hrank : contiguousRank? twoColumns = some 2 := (hgrammar 2).2 ⟨_, _, rfl, hform, rfl⟩
  refine ⟨hranks, hrank, htotal 2 hrank, trivial, ?_⟩
  rw [hverdict (.symbol cube) ∅ trivial, hrank]
  decide +kernel

end Subscript
end FortranExpr
