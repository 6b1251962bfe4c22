/-
# Two readings side by side

The second reading goes through the values of the first one under other ids (`Json.Renames`),
at places of its own, with declarations of its own.  A `SideBySide` says which places face each
other, what the symbols under an id and under its new id have in common, and how the failures of
the second reading follow from those of the first, if that matters.

`m'.Along m` in words: where the first reading has a result, the second has one with the same
view; where the first fails, the second fails with the failure that follows.  Each reader of a
field and of a node goes along with itself, and so do `readExpr` and `readLoop`
(`readExpr_along`), for a view of every symbol of the expression.
-/

import FortranExpr.Fixture.Expression
import FortranExpr.Proofs.Expr.Map
import FortranExpr.Proofs.Fixture.Reading
import FortranExpr.Proofs.Fixture.Renaming

namespace FortranExpr

/-! ### A reading along another one -/

namespace Read

variable {α α' β β' γ : Type} {E : Option (Failure → Failure)} {Q : α → α' → Prop}
  {R : β → β' → Prop}

/-- Where `m` has a result, `m'` has one that goes with it by `Q`; where `m` fails, `m'` fails
as `E` tells, if it does. -/
def Along (E : Option (Failure → Failure)) (Q : α → α' → Prop) (m : Read α) (m' : Read α') :
    Prop :=
  match m with
  | .ok a => ∃ a', m' = .ok a' ∧ Q a a'
  | .error f => ∀ g ∈ E, m' = .error (g f)

/-- Results side by side. -/
theorem along_pure {a : α} {a' : α'} (h : Q a a') : Along E Q (pure a) (pure a') := ⟨a', rfl, h⟩

/-- A failure that the other side does not have to answer. -/
theorem along_error (f : Failure) (m' : Read α') :
    Along none Q (.error f : Read α) m' := nofun

/-- Where the first side has a result, the second has one that goes with it. -/
theorem Along.of_eq_ok {m : Read α} {m' : Read α'} (h : Along E Q m m') {a : α}
    (hm : m = .ok a) : ∃ a', m' = .ok a' ∧ Q a a' := by
  subst hm
  exact h

/-- **One step after the other,** in both readings. -/
theorem Along.bind {m : Read α} {m' : Read α'} (h : Along E Q m m') {k : α → Read β}
    {k' : α' → Read β'} (hk : ∀ a a', Q a a' → Along E R (k a) (k' a')) :
    Along E R (m >>= k) (m' >>= k') := by
  cases m with
  | ok a =>
    obtain ⟨a', rfl, ha⟩ := h
    exact hk a a' ha
  | error f =>
    intro g hg
    rw [h g hg]
    rfl

/-- What is done to both results afterwards keeps them side by side. -/
theorem Along.map {m : Read α} {m' : Read α'} (h : Along E Q m m') {k : α → β} {k' : α' → β'}
    (hk : ∀ a a', Q a a' → R (k a) (k' a')) : Along E R (m.map k) (m'.map k') := by
  cases m with
  | ok a =>
    obtain ⟨a', rfl, ha⟩ := h
    exact ⟨k' a', rfl, hk a a' ha⟩
  | error f =>
    intro g hg
    rw [h g hg]
    rfl

/-- Less may be asked of two results. -/
theorem Along.mono {Q' : α → α' → Prop} {m : Read α} {m' : Read α'} (h : Along E Q m m')
    (hQ : ∀ a a', Q a a' → Q' a a') : Along E Q' m m' := by
  cases m with
  | ok a =>
    obtain ⟨a', rfl, ha⟩ := h
    exact ⟨a', rfl, hQ a a' ha⟩
  | error f => exact h

/-- What is known of a result goes with what the readings have in common. -/
theorem Along.and_left {P : α → Prop} {m : Read α} {m' : Read α'} (h : Along E Q m m')
    (hP : ∀ a, m = .ok a → P a) : Along E (fun a a' => P a ∧ Q a a') m m' := by
  cases m with
  | ok a =>
    obtain ⟨a', rfl, ha⟩ := h
    exact ⟨a', rfl, hP a rfl, ha⟩
  | error f => exact h

/-- Items are read side by side, at the same index, and the first failure ends both. -/
theorem along_itemsFrom {P : α → α' → Prop} {as : List α} {as' : List α'}
    (h : List.Forall₂ P as as') {path path' : Path} {read : α → Path → Read β}
    {read' : α' → Path → Read β'}
    (hread : ∀ i a a', P a a' → Along E R (read a (path.item i)) (read' a' (path'.item i)))
    (index : Nat) :
    Along E (List.Forall₂ R) (itemsFrom path read index as) (itemsFrom path' read' index as') := by
  induction h generalizing index with
  | nil => exact along_pure .nil
  | cons ha _ ih =>
    refine (hread index _ _ ha).bind fun b b' hb => ?_
    exact (ih (index + 1)).bind fun bs bs' hbs => along_pure (.cons hb hbs)

/-- **Items are read along items.** -/
theorem along_items {P : α → α' → Prop} {as : List α} {as' : List α'}
    (h : List.Forall₂ P as as') {path path' : Path} {read : α → Path → Read β}
    {read' : α' → Path → Read β'}
    (hread : ∀ i a a', P a a' → Along E R (read a (path.item i)) (read' a' (path'.item i))) :
    Along E (List.Forall₂ R) (items path read as) (items path' read' as') :=
  along_itemsFrom h hread 0

/-- Readings that carry their own paths go along one after another. -/
theorem along_mapM {P : α → α' → Prop} {as : List α} {as' : List α'}
    (h : List.Forall₂ P as as') {read : α → Read β} {read' : α' → Read β'}
    (hread : ∀ a a', P a a' → Along E R (read a) (read' a')) :
    Along E (List.Forall₂ R) (as.mapM read) (as'.mapM read') := by
  induction h with
  | nil => exact along_pure .nil
  | cons ha _ ih =>
    rw [List.mapM_cons, List.mapM_cons]
    refine (hread _ _ ha).bind fun b b' hb => ?_
    exact ih.bind fun bs bs' hbs => along_pure (.cons hb hbs)

/-- Results with the same views one by one have the same views together. -/
theorem map_eq_of_forall₂ {view : β → γ} {view' : β' → γ} {bs : List β} {bs' : List β'}
    (h : List.Forall₂ (fun b b' => view' b' = view b) bs bs') : bs'.map view' = bs.map view := by
  induction h with
  | nil => rfl
  | cons hb _ ih => rw [List.map_cons, List.map_cons, hb, ih]

/-- Lists of equal items are equal. -/
theorem eq_of_forall₂ {bs bs' : List β} (h : List.Forall₂ (fun b b' => b' = b) bs bs') :
    bs' = bs := by
  induction h with
  | nil => rfl
  | cons hb _ ih => rw [hb, ih]

end Read

/-! ### What faces each other -/

/-- Two readings side by side: at places that face each other, with symbols under an id and
under its new id that have the same view. -/
structure SideBySide (τ : Type) where
  newIds : Renaming
  ids : SymbolIds
  ids' : SymbolIds
  view : Symbol → τ
  view' : Symbol → τ
  Facing : Path → Path → Prop
  failures : Option (Failure → Failure)
  member {path path' : Path} : Facing path path' → ∀ name,
    Facing (path.member name) (path'.member name)
  component {path path' : Path} : Facing path path' → ∀ id,
    Facing (path.member id) (path'.member (newIds.symbol id))
  item {path path' : Path} : Facing path path' → ∀ i, Facing (path.item i) (path'.item i)
  rejected {g : Failure → Failure} : g ∈ failures → ∀ {path path' : Path}, Facing path path' →
    ∀ problem, g (.rejected ⟨problem, path⟩) = .rejected ⟨problem, path'⟩
  unprintable {g : Failure → Failure} : g ∈ failures → g .unprintable = .unprintable
  symbol {path path' : Path} : Facing path path' → ∀ id, Read.Along failures
    (fun s s' => view' s' = view s) (ids.resolve id path) (ids'.resolve (newIds.symbol id) path')

namespace SideBySide

open Json (Renames)
open Read (along_pure along_items)

variable {τ α α' : Type} {S : SideBySide τ} {Q : α → α' → Prop} {path path' : Path}

/-- The second reading goes along with the first one. -/
abbrev Along (S : SideBySide τ) (Q : α → α' → Prop) (m : Read α) (m' : Read α') : Prop :=
  m.Along S.failures Q m'

section Fields

variable (hpath : S.Facing path path')
include hpath

/-- A problem without an id is refused alike at facing places. -/
theorem reject_along (problem : Problem) :
    S.Along Q (.reject problem path) (.reject problem path') := by
  intro g hg
  rw [Read.reject, S.rejected hg hpath]

/-- What was expected is no id. -/
theorem expected_along (what : Expectation) :
    S.Along Q (.expected what path) (.expected what path') :=
  reject_along hpath _

/-- An unknown word is quoted alike on both sides, or has no text on both. -/
theorem unknownWord_along (topic : String) (value : Option Json) :
    S.Along Q (.unknownWord topic value path) (.unknownWord topic value path') := by
  unfold Read.unknownWord
  split
  · exact reject_along hpath _
  · split
    · exact reject_along hpath _
    · intro g hg
      rw [S.unprintable hg]

/-- An object faces an object. -/
theorem object_along {place : Place} {value value' : Option Json}
    (h : Option.Rel (Renames S.newIds place) value value') :
    S.Along (Renames S.newIds place) (Field.object value path) (Field.object value' path') := by
  cases h with
  | none => exact expected_along hpath _
  | some hv =>
    rw [Field.object, Field.object, hv.eq, Json.isObject_rename]
    split
    · exact along_pure ⟨rfl, hv.keepsOrder⟩
    · exact expected_along hpath _

/-- The same value is the same word of a vocabulary, or of neither. -/
theorem wordOf_along {α : Type} [Vocabulary α] (value : Option Json) :
    S.Along (fun a a' : α => a' = a) (Field.wordOf value path) (Field.wordOf value path') := by
  unfold Field.wordOf
  split
  · split
    · exact along_pure rfl
    · exact reject_along hpath _
  · exact unknownWord_along hpath _ _

variable {record record' : Json} {key : String}

/-- A string faces the string that it is under the new ids. -/
theorem string_along (target : Place)
    (h : Option.Rel (Renames S.newIds target) (record.get? key) (record'.get? key)) :
    S.Along (fun s s' => s' = target.word S.newIds s) (Field.string record key path)
      (Field.string record' key path') := by
  unfold Field.string
  generalize record.get? key = o at h ⊢
  generalize record'.get? key = o' at h ⊢
  cases h with
  | none => exact reject_along hpath _
  | @some v v' hv =>
    obtain ⟨rfl, _⟩ := hv
    cases v with
    | str s => exact along_pure rfl
    | _ => exact expected_along (S.member hpath key) _

/-- An id that may be absent: then the defaults have to face each other. -/
theorem idOr_along (target : Place)
    (h : Option.Rel (Renames S.newIds target) (record.get? key) (record'.get? key))
    {fallback fallback' : String}
    (hfallback : record.get? key = none ∨ record.get? key = some .null →
      fallback' = target.word S.newIds fallback) :
    S.Along (fun s s' => s' = target.word S.newIds s) (Field.idOr fallback record key path)
      (Field.idOr fallback' record' key path') := by
  unfold Field.idOr
  generalize record.get? key = o at h hfallback ⊢
  generalize record'.get? key = o' at h ⊢
  cases h with
  | none => exact along_pure (hfallback (.inl rfl))
  | @some v v' hv =>
    obtain ⟨rfl, _⟩ := hv
    cases v with
    | null => exact along_pure (hfallback (.inr rfl))
    | str s => exact along_pure rfl
    | _ => exact expected_along (S.member hpath key) _

/-- An array faces an array of as many items. -/
theorem array_along (target : Place)
    (h : Option.Rel (Renames S.newIds target) (record.get? key) (record'.get? key)) :
    S.Along (List.Forall₂ (Renames S.newIds target.item)) (Field.array record key path)
      (Field.array record' key path') := by
  unfold Field.array
  generalize record.get? key = o at h ⊢
  generalize record'.get? key = o' at h ⊢
  cases h with
  | none => exact along_pure .nil
  | @some v v' hv =>
    cases v with
    | arr items =>
      obtain ⟨items', rfl, hitems⟩ := hv.items
      exact along_pure hitems
    | _ =>
      obtain ⟨rfl, _⟩ := hv
      exact expected_along (S.member hpath key) _

/-- **A reference** to a symbol. -/
theorem field_along
    (h : Option.Rel (Renames S.newIds .symbolId) (record.get? key) (record'.get? key)) :
    S.Along (fun s s' => S.view' s' = S.view s) (S.ids.field record key path)
      (S.ids'.field record' key path') := by
  refine (string_along hpath .symbolId h).bind fun id id' hid => ?_
  subst hid
  exact S.symbol (S.member hpath key) id

/-! ### Fields without ids -/

variable (h : Option.Rel (Renames S.newIds .plain) (record.get? key) (record'.get? key))
include h

/-- A number is the same on both sides, also where it is the default. -/
theorem count_along (fallback : Binary64) : S.Along (fun x x' => x' = x)
    (Field.count fallback record key path) (Field.count fallback record' key path') := by
  unfold Field.count
  rw [Json.eq_of_rel_plain h]
  split
  · exact along_pure rfl
  · split
    · exact along_pure rfl
    · exact expected_along (S.member hpath key) _
  · exact expected_along (S.member hpath key) _

/-- A boolean is the same on both sides. -/
theorem flag_along : S.Along (fun b b' => b' = b) (Field.flag record key path)
    (Field.flag record' key path') := by
  unfold Field.flag
  rw [Json.eq_of_rel_plain h]
  split
  · exact along_pure rfl
  · exact along_pure rfl
  · exact expected_along (S.member hpath key) _

/-- A string that is no id is the same on both sides. -/
theorem text_along : S.Along (fun s s' => s' = s) (Field.string record key path)
    (Field.string record' key path') :=
  string_along hpath .plain h

/-- A word of a vocabulary is no id, so it is the same on both sides. -/
theorem word_along {α : Type} [Vocabulary α] : S.Along (fun a a' : α => a' = a)
    (Field.word record key path) (Field.word record' key path') := by
  refine (text_along hpath h).bind fun text text' htext => ?_
  obtain rfl : text = text' := htext.symm
  split
  · exact along_pure rfl
  · exact reject_along (S.member hpath key) _

end Fields

end SideBySide
end FortranExpr
