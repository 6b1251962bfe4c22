/-
# Literals fill their shapes

A literal that is read has as many values as its shape has places.  The reader multiplies the
extents in double precision, which may round or overflow; it accepts only the number of the values
as the product, and rounding leads to no such number (`Binary64.prod_eq_of_foldl_mul`).

| extents | product as computed | exact product | values accepted |
| --- | --- | --- | --- |
| none | | | one |
| `2`, `3` | 6 | 6 | six |
| `0`, `10 ^ 308`, `10 ^ 308` | 0 | 0 | none |
| `10 ^ 308`, `10 ^ 308`, `0` | undefined | 0 | no number of them |
| `94906267`, `94906267` | above `2 ^ 53` | above `2 ^ 53` | no number of them below `2 ^ 53` |

Lists are as long as they need to be here, while an array has fewer than `2 ^ 32` items where
fixtures are read.  So it is left open what is accepted with `2 ^ 53` values and more.
-/

import FortranExpr.Proofs.Fixture.Load
import FortranExpr.Proofs.Number.Rounded

namespace FortranExpr
namespace Constant

variable {c : Constant}

/-- A literal fills its shape: it has one value and no extents, or as many values as its extents,
which are natural numbers, multiply to. -/
def FillsShape (c : Constant) : Prop :=
  c.shape = [] ∧ c.values.length = 1 ∨
    ∃ extents : List Nat, extents ≠ [] ∧ c.shape = extents.map (fun n : Nat => .finite n) ∧
      extents.prod = c.values.length

theorem exists_extents {shape : List Binary64} (h : ∀ x ∈ shape, x.isCount = true) :
    ∃ extents : List Nat, shape = extents.map fun n : Nat => .finite n := by
  induction shape with
  | nil => exact ⟨[], rfl⟩
  | cons x rest ih =>
    obtain ⟨hx, hrest⟩ := List.forall_mem_cons.1 h
    obtain ⟨n, rfl⟩ := Binary64.isCount_iff.1 hx
    obtain ⟨extents, rfl⟩ := ih hrest
    exact ⟨n :: extents, rfl⟩

/-- **What is counted in double precision** is counted exactly. -/
theorem IsCounted.fillsShape (h : c.IsCounted) (hlength : c.values.length < 2 ^ 53) :
    c.FillsShape := by
  cases h with
  | scalar category value => exact .inl ⟨rfl, rfl⟩
  | list category values =>
    have hextent : Binary64.ofNat values.length = .finite values.length :=
      Binary64.ofNat_eq_finite (Nat.le_of_lt hlength)
    exact .inr ⟨[values.length], List.cons_ne_nil _ _, congrArg (fun x => [x]) hextent,
      List.prod_singleton⟩
  | array given counts filled =>
    obtain ⟨extents, rfl⟩ := exists_extents counts
    have hne : extents ≠ [] := fun hnil => given (congrArg _ hnil)
    exact .inr ⟨extents, hne, rfl, Binary64.prod_eq_of_foldl_mul hlength filled⟩

/-- A literal without a shape is given by one value. -/
theorem IsCounted.exists_scalar? (h : c.IsCounted) (hshape : c.shape = []) :
    ∃ v, c.scalar? = some v := by
  cases h with
  | scalar category value => exact ⟨value, rfl⟩
  | list => cases hshape
  | array given => exact absurd hshape given

/-- Of rank 0 are the literals without a shape. -/
theorem shape_eq_nil_of_rank (h : (Expr.constant c : Expr Symbol).rank = 0) : c.shape = [] := by
  rw [Expr.rank] at h
  have hzero : Binary64.ofNat c.shape.length = .finite (0 : Nat) := h
  exact List.length_eq_zero_iff.1 (Binary64.eq_of_ofNat_eq_finite hzero (by decide))

end Constant

namespace Fixture

variable {file : Option String} {document : Json} {f : Fixture} {e : Expr Symbol}

/-- The expressions of a fixture: those of its checks, and the initial values of its symbols. -/
def expressions (f : Fixture) : List (Expr Symbol) :=
  f.checks.map (·.expr) ++
    f.loaded.symbols.values.filterMap fun s => s.details.object?.bind (·.init)

theorem IsReadFrom.isRead (h : f.IsReadFrom document) (he : e ∈ f.expressions) :
    (Item.expr e).IsRead f.loaded.symbols.values := by
  rcases List.mem_append.1 he with he | he
  · obtain ⟨check, hcheck, rfl⟩ := List.mem_map.1 he
    have hreads := h.checks.imp fun _ _ hcheck => hcheck.reads
    exact Read.forall_mem_of_forall₂ hreads check hcheck
  · obtain ⟨s, hs, hinit⟩ := List.mem_filterMap.1 he
    obtain ⟨declared, hobject, hinit⟩ := Option.bind_eq_some_iff.1 hinit
    exact h.initials s hs declared hobject e hinit

/-- **Every literal of a fixture fills its shape,** wherever it stands in a check or in an initial
value, and has a value if it is of rank 0.  The bound is there for lists; no array has as many
items. -/
theorem literal_fillsShape (h : ofJson file document = .ok f) (he : e ∈ f.expressions)
    {path : List Nat} {c : Constant} (hc : (Item.expr e).at? path = some (.expr (.constant c))) :
    (c.values.length < 2 ^ 53 → c.FillsShape) ∧
      ((Expr.constant c : Expr Symbol).rank = 0 → ∃ v, c.scalar? = some v) := by
  have hread : f.IsReadFrom document := (ofJson_meets file document).of_eq_ok h
  have hcounted : c.IsCounted := (hread.isRead he).isCounted hc
  exact ⟨hcounted.fillsShape, fun hrank =>
    hcounted.exists_scalar? (Constant.shape_eq_nil_of_rank hrank)⟩

/-- A literal in parentheses. -/
def inParens (members : List (String × Json)) : Json :=
  .obj [("node", .str "parens"),
    ("operand", .obj ([("node", .str "constant"), ("type", .str "integer")] ++ members))]

/-- The numbers from 1 to 6 in two rows; the number 7; and as an initial value an array of very
great extents that has no places. -/
def filledLiterals : Json :=
  .obj [
    ("symbols", .arr [
      .obj [("name", .str "a"), ("scope", .str "global"),
        ("details", .obj [("kind", .str "object"),
          ("init", inParens [("values", .arr []),
            ("shape", .arr ([0, 10 ^ 308, 10 ^ 308].map fun n => .num (.ofNat n)))])])]]),
    ("checks", .arr [
      .obj [("name", .str "rows"),
        ("expr", inParens [("values", .arr ([1, 2, 3, 4, 5, 6].map fun n => .num (.ofNat n))),
          ("shape", .arr ([2, 3].map fun n => .num (.ofNat n)))])],
      .obj [("name", .str "seven"), ("expr", inParens [("value", .num (.ofNat 7))])]])]

/-- The literal of the first check. -/
def twoRows : Constant :=
  ⟨.integer, [1, 2, 3, 4, 5, 6].map fun n => .number (.ofNat n), [2, 3].map .ofNat⟩

/-- The literal of the second check. -/
def seven : Constant := ⟨.integer, [.number (.ofNat 7)], []⟩

/-- The literal of the initial value. -/
def noPlaces : Constant := ⟨.integer, [], [0, 10 ^ 308, 10 ^ 308].map .ofNat⟩

theorem literal_fillsShape_filledLiterals : ∃ f, ofJson none filledLiterals = .ok f ∧
    (∀ c ∈ [twoRows, seven, noPlaces], c.values.length < 2 ^ 53 ∧
      ∃ e ∈ f.expressions, (Item.expr e).at? [0] = some (.expr (.constant c))) ∧
    twoRows.FillsShape ∧ noPlaces.FillsShape ∧ ∃ v, seven.scalar? = some v := by
  have hread : (ofJson none filledLiterals).toOption.map (fun f =>
      f.expressions.map fun e => ((Item.expr e).at? [0]).map Item.literals) =
      some [some [twoRows], some [seven], some [noPlaces]] := by
    decide +kernel
  obtain ⟨f, hf, hexpressions⟩ := Read.exists_of_map_toOption hread
  have hthere : ∀ c ∈ [twoRows, seven, noPlaces],
      ∃ e ∈ f.expressions, (Item.expr e).at? [0] = some (.expr (.constant c)) := by
    intro c hc
    have hmem : some [c] ∈ f.expressions.map fun e => ((Item.expr e).at? [0]).map Item.literals :=
      hexpressions ▸ List.mem_map_of_mem (f := fun c => some [c]) hc
    obtain ⟨e, he, hliterals⟩ := List.mem_map.1 hmem
    obtain ⟨i, hi, hc⟩ := Option.map_eq_some_iff.1 hliterals
    obtain rfl := Item.mem_literals_iff.1 (hc ▸ List.mem_cons_self)
    exact ⟨e, he, hi⟩
  obtain ⟨rows, hrows, hrowsAt⟩ := hthere twoRows (by decide +kernel)
  obtain ⟨single, hsingle, hsingleAt⟩ := hthere seven (by decide +kernel)
  obtain ⟨large, hlarge, hlargeAt⟩ := hthere noPlaces (by decide +kernel)
  refine ⟨f, hf, fun c hc => ⟨?_, hthere c hc⟩, ?_, ?_, ?_⟩
  · have hlengths : ∀ c ∈ [twoRows, seven, noPlaces], c.values.length < 2 ^ 53 := by
      decide +kernel
    exact hlengths c hc
  · exact (literal_fillsShape hf hrows hrowsAt).1 (by decide +kernel)
  · exact (literal_fillsShape hf hlarge hlargeAt).1 (by decide +kernel)
  · exact (literal_fillsShape hf hsingle hsingleAt).2 (by decide +kernel)

end Fixture
end FortranExpr
