/-
# One collector

A collector keeps a flag beside its list, and answers three questions about errors: by the
flag, by the list and by counting.  The flag is set when a diagnostic is added and never looked
up in the list, so that the answers agree is an invariant (`FlagFits`): it holds of the empty
collector, and adding keeps it.
-/

import FortranExpr.Diagnostic.Collector

namespace FortranExpr

/-- The diagnostic is an error. -/
def Diagnostic.isError (d : Diagnostic) : Bool := decide (d.level = .error)

namespace Collector

/-- Adds diagnostics one after another. -/
def addAll (c : Collector) (ds : List Diagnostic) : Collector := ds.foldl add c

/-- Diagnostics go to the end, in the order they come. -/
theorem diagnostics_addAll (c : Collector) (ds : List Diagnostic) :
    (c.addAll ds).diagnostics = c.diagnostics ++ ds := by
  induction ds generalizing c with
  | nil => exact (List.append_nil _).symm
  | cons d rest ih =>
    show ((c.add d).addAll rest).diagnostics = _
    rw [ih, add, List.append_assoc, List.singleton_append]

/-- The flag is up when it was, or when one of the new diagnostics is an error. -/
theorem hasErrors_addAll (c : Collector) (ds : List Diagnostic) :
    (c.addAll ds).hasErrors = (c.hasErrors || ds.any Diagnostic.isError) := by
  induction ds generalizing c with
  | nil => exact (Bool.or_false _).symm
  | cons d rest ih =>
    show ((c.add d).addAll rest).hasErrors = _
    rw [ih, List.any_cons, ← Bool.or_assoc]
    rfl

/-- The flag tells what a look at the list would tell. -/
def FlagFits (c : Collector) : Prop := c.hasErrors = c.diagnostics.any Diagnostic.isError

/-- The flag of the empty collector is down. -/
theorem flagFits_empty : empty.FlagFits := rfl

/-- Adding keeps the flag in step with the list. -/
theorem FlagFits.addAll {c : Collector} (h : c.FlagFits) (ds : List Diagnostic) :
    (c.addAll ds).FlagFits := by
  rw [FlagFits, hasErrors_addAll, diagnostics_addAll, List.any_append, h]

/-- What can be asked of a collector fits together: the flag, the list, the errors and the
counts. -/
structure IsConsistent (c : Collector) : Prop where
  hasErrors_iff_mem : c.hasErrors = true ↔ ∃ d ∈ c.diagnostics, d.level = .error
  hasErrors_iff_errors : c.hasErrors = true ↔ c.errors ≠ []
  hasErrors_iff_count : c.hasErrors = true ↔ 0 < c.countByLevel .error
  errors_eq : c.errors = c.diagnostics.filter fun d => decide (d.level = .error)
  counts : c.countByLevel .error + c.countByLevel .warning + c.countByLevel .note +
    c.countByLevel .help = c.diagnostics.length

/-- Every diagnostic is of one of the four levels. -/
theorem countByLevel_sum (c : Collector) :
    c.countByLevel .error + c.countByLevel .warning + c.countByLevel .note +
      c.countByLevel .help = c.diagnostics.length := by
  obtain ⟨ds, flag⟩ := c
  show (ds.filter _).length + (ds.filter _).length + (ds.filter _).length +
    (ds.filter _).length = ds.length
  induction ds with
  | nil => rfl
  | cons d rest ih =>
    obtain ⟨level, message, span, code, hint⟩ := d
    cases level <;> simp only [List.filter_cons, List.length_cons, decide_true, reduceCtorEq,
      decide_false, if_true, if_false, Bool.false_eq_true] <;> omega

/-- A flag in step with the list is all that consistency takes. -/
theorem FlagFits.isConsistent {c : Collector} (h : c.FlagFits) : c.IsConsistent := by
  have hmem : c.hasErrors = true ↔ ∃ d ∈ c.diagnostics, d.level = .error := by
    rw [h, List.any_eq_true]
    simp only [Diagnostic.isError, decide_eq_true_eq]
  have herrors : c.hasErrors = true ↔ c.errors ≠ [] := by
    rw [hmem]
    constructor
    · rintro ⟨d, hd, herror⟩
      exact List.ne_nil_of_mem (List.mem_filter.2 ⟨hd, decide_eq_true herror⟩)
    · intro hne
      obtain ⟨d, hd⟩ := List.exists_mem_of_ne_nil _ hne
      obtain ⟨hmem, herror⟩ := List.mem_filter.1 hd
      exact ⟨d, hmem, of_decide_eq_true herror⟩
  exact
    { hasErrors_iff_mem := hmem
      hasErrors_iff_errors := herrors
      hasErrors_iff_count := herrors.trans List.length_pos_iff.symm
      errors_eq := rfl
      counts := c.countByLevel_sum }

end Collector
end FortranExpr
