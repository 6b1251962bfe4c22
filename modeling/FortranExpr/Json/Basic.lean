/-
# JSON values

An object keeps its members as they are written, repeats included.

| question | answer |
| --- | --- |
| the member `k` | the last one written under `k` (`get?`) |
| the members one after another | array indices in ascending order, then the other names in the order they first appear, each with its last value (`members`) |

An array index is a name such as `0`, `7` or `4294967294`: a number below
`2 ^ 32 - 1` in its shortest decimal form.
-/

import FortranExpr.Number.Layout
import FortranExpr.OrderedMap

namespace FortranExpr

/-- A JSON value. -/
inductive Json where
  | null
  | bool (value : Bool)
  | num (value : Binary64)
  | str (value : String)
  | arr (items : List Json)
  | obj (written : List (String × Json))

namespace Json

/-- The last value written under a name. -/
def lastUnder? (name : String) : List (String × Json) → Option Json
  | [] => none
  | (n, v) :: rest =>
    match lastUnder? name rest with
    | some w => some w
    | none => if n = name then some v else none

theorem sizeOf_lt_of_lastUnder? {name : String} {v : Json} :
    ∀ {written : List (String × Json)}, lastUnder? name written = some v →
      sizeOf v < sizeOf written
  | (n, w) :: rest, h => by
    rw [lastUnder?] at h
    split at h
    · rename_i u hu
      cases h
      have := sizeOf_lt_of_lastUnder? hu
      simp only [List.cons.sizeOf_spec, Prod.mk.sizeOf_spec]
      omega
    · split at h
      · cases h
        simp only [List.cons.sizeOf_spec, Prod.mk.sizeOf_spec]
        omega
      · cases h

/-- The member of an object; other values have none. -/
def get? (v : Json) (name : String) : Option Json :=
  match v with
  | obj written => lastUnder? name written
  | _ => none

theorem sizeOf_lt_of_get? {v w : Json} {name : String} (h : v.get? name = some w) :
    sizeOf w < sizeOf v := by
  cases v with
  | obj written =>
    have := sizeOf_lt_of_lastUnder? h
    simp only [obj.sizeOf_spec]
    omega
  | _ => simp [get?] at h

/-- The number that a name stands for as an array index. -/
def arrayIndex? (name : String) : Option Nat :=
  let digits := name.toList
  if digits.all Char.isDigit && digits.length ≤ 10 then
    let value := Nat.ofDigitChars 10 digits 0
    if Nat.toDigits 10 value = digits ∧ value < 4294967295 then some value else none
  else none

/-- Array indices in ascending order, then the other names as they stand. -/
def enumerated (entries : List (String × Json)) : List (String × Json) :=
  let indexed := entries.filterMap fun e => (arrayIndex? e.1).map fun i => (i, e)
  (indexed.mergeSort fun a b => decide (a.1 ≤ b.1)).map Prod.snd ++
    entries.filter fun e => (arrayIndex? e.1).isNone

/-- The members of an object one after another; other values have none. -/
def members : Json → List (String × Json)
  | obj written => enumerated (OrderedMap.ofList written).toList
  | _ => []

theorem mem_enumerated {e : String × Json} {entries : List (String × Json)}
    (h : e ∈ enumerated entries) : e ∈ entries := by
  simp only [enumerated, List.mem_append, List.mem_map, List.mem_mergeSort, List.mem_filterMap,
    Option.map_eq_some_iff, List.mem_filter] at h
  rcases h with ⟨⟨i, e'⟩, ⟨a, ha, j, _, hj⟩, rfl⟩ | ⟨h, _⟩
  · cases hj; exact ha
  · exact h

theorem sizeOf_lt_of_mem_members {v : Json} {e : String × Json} (h : e ∈ v.members) :
    sizeOf e.2 < sizeOf v := by
  cases v with
  | obj written =>
    have := List.sizeOf_lt_of_mem (OrderedMap.mem_of_mem_ofList (mem_enumerated h))
    obtain ⟨name, w⟩ := e
    simp only [Prod.mk.sizeOf_spec, obj.sizeOf_spec] at this ⊢
    omega
  | _ => simp [members] at h

/-- A value inside another one. -/
abbrev Below (v : Json) : Type := { w : Json // sizeOf w < sizeOf v }

/-- The member of an object, as a value inside it. -/
def child? (v : Json) (name : String) : Option (Below v) :=
  match h : v.get? name with
  | some w => some ⟨w, sizeOf_lt_of_get? h⟩
  | none => none

/-- The members of an object one after another, as values inside it. -/
def children (v : Json) : List (String × Below v) :=
  v.members.attach.map fun e => (e.1.1, ⟨e.1.2, sizeOf_lt_of_mem_members e.2⟩)

namespace Below

variable {v : Json}

/-- A member of a value inside another one. -/
def child? (w : Below v) (name : String) : Option (Below v) :=
  (w.1.child? name).map fun u => ⟨u.1, Nat.lt_trans u.2 w.2⟩

/-- The items of an array inside another value. -/
def items? (w : Below v) : Option (List (Below v)) :=
  match w with
  | ⟨arr items, h⟩ => some <| items.attach.map fun u =>
    ⟨u.1, Nat.lt_trans (Nat.lt_trans (List.sizeOf_lt_of_mem u.2)
      (by simp only [arr.sizeOf_spec]; omega)) h⟩
  | _ => none

/-- The members of an object inside another value, one after another. -/
def children (w : Below v) : List (String × Below v) :=
  w.1.children.map fun e => (e.1, ⟨e.2.1, Nat.lt_trans e.2.2 w.2⟩)

end Below

/-- The value is an object. -/
def isObject : Json → Bool
  | obj _ => true
  | _ => false

end Json
end FortranExpr
