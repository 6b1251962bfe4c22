/-
# Readings, step by step

`m.Meets Q E` says of a reading that its result satisfies `Q` if it has one, and its failure
satisfies `E` if it fails.  A reading of several steps meets what its last step meets, when
every step meets the same `E` (`Meets.bind`); a list is read item by item
(`meets_items`).

Where the results are known beforehand, every step has the one it is to have
(`bind_eq_ok`, `items_eq_ok`).
-/

import FortranExpr.Fixture.Failure
import Mathlib.Data.List.Forall2

namespace FortranExpr

/-- Lists with the same images correspond item by item. -/
theorem forall₂_of_map_eq {α β γ : Type} {f : α → γ} {g : β → γ} {as : List α} {bs : List β}
    (h : as.map f = bs.map g) : List.Forall₂ (fun a b => f a = g b) as bs := by
  have heq : List.Forall₂ (· = ·) (as.map f) (bs.map g) := by
    rw [h]
    exact List.forall₂_refl _
  exact List.forall₂_map_right_iff.1 (List.forall₂_map_left_iff.1 heq)

namespace Read

variable {α β : Type} {Q Q' : α → Prop} {R : β → Prop} {E : Failure → Prop}

/-- `Q` holds of the result of a reading, and `E` of its failure. -/
def Meets (m : Read α) (Q : α → Prop) (E : Failure → Prop) : Prop :=
  match m with
  | .ok a => Q a
  | .error f => E f

/-- A result that is as asked for. -/
theorem meets_pure {a : α} (h : Q a) : Meets (pure a) Q E := h

/-- What a reading yields is as asked for. -/
theorem Meets.of_eq_ok {m : Read α} (h : m.Meets Q E) {a : α} (hm : m = .ok a) : Q a := by
  subst hm
  exact h

/-- What a reading fails for is one of the failures allowed. -/
theorem Meets.of_eq_error {m : Read α} (h : m.Meets Q E) {f : Failure} (hm : m = .error f) :
    E f := by
  subst hm
  exact h

/-- Less may be asked of a result. -/
theorem Meets.mono {m : Read α} (h : m.Meets Q E) (hQ : ∀ a, Q a → Q' a) : m.Meets Q' E := by
  cases m with
  | ok a => exact hQ a h
  | error f => exact h

/-- Two demands on a result are one. -/
theorem Meets.and {m : Read α} (h : m.Meets Q E) (h' : m.Meets Q' E) :
    m.Meets (fun a => Q a ∧ Q' a) E := by
  cases m with
  | ok a => exact ⟨h, h'⟩
  | error f => exact h

/-- **One step after the other.** -/
theorem Meets.bind {m : Read α} (h : m.Meets Q E) {k : α → Read β}
    (hk : ∀ a, Q a → (k a).Meets R E) : Meets (m >>= k) R E := by
  cases m with
  | ok a => exact hk a h
  | error f => exact h

/-- What is done to a result afterwards may change what is known of it. -/
theorem Meets.map {m : Read α} (h : m.Meets Q E) {f : α → β} (hf : ∀ a, Q a → R (f a)) :
    Meets (Except.map f m) R E := by
  cases m with
  | ok a => exact hf a h
  | error f => exact h

/-- Items are read each at its own index; all of them are as asked for, or one fails. -/
theorem meets_itemsFrom {path : Path} {read : α → Path → Read β} {P : α → β → Prop}
    {list : List α} {index : Nat}
    (h : ∀ i a, list[i]? = some a → (read a (path.item (index + i))).Meets (P a) E) :
    (itemsFrom path read index list).Meets (List.Forall₂ P list) E := by
  induction list generalizing index with
  | nil => exact .nil
  | cons a rest ih =>
    refine (h 0 a rfl).bind fun b hb => ?_
    have hrest : (itemsFrom path read (index + 1) rest).Meets (List.Forall₂ P rest) E :=
      ih fun i c hc => Nat.add_right_comm index 1 i ▸ h (i + 1) c hc
    exact hrest.bind fun bs hbs => .cons hb hbs

/-- **A list is read item by item,** each at its own path. -/
theorem meets_items {path : Path} {read : α → Path → Read β} {P : α → β → Prop} {list : List α}
    (h : ∀ i a, list[i]? = some a → (read a (path.item i)).Meets (P a) E) :
    (items path read list).Meets (List.Forall₂ P list) E :=
  meets_itemsFrom fun i a ha => (Nat.zero_add i).symm ▸ h i a ha

/-- A demand that does not look at what was read holds of each result. -/
theorem forall_mem_of_forall₂ {P : β → Prop} {list : List α} {bs : List β}
    (h : List.Forall₂ (fun _ b => P b) list bs) : ∀ b ∈ bs, P b := by
  induction h with
  | nil => exact nofun
  | cons hb _ ih => exact List.forall_mem_cons.2 ⟨hb, ih⟩

/-- What every item yields holds of all results. -/
theorem meets_items_forall {path : Path} {read : α → Path → Read β} {list : List α}
    (h : ∀ i a, list[i]? = some a → (read a (path.item i)).Meets R E) :
    (items path read list).Meets (fun bs => ∀ b ∈ bs, R b) E :=
  (meets_items (P := fun _ b => R b) h).mono fun _ => forall_mem_of_forall₂

/-- Readings that carry their own paths meet a demand one after another. -/
theorem meets_mapM {f : α → Read β} {list : List α} (h : ∀ a ∈ list, (f a).Meets R E) :
    Meets (list.mapM f) (fun bs => ∀ b ∈ bs, R b) E := by
  induction list with
  | nil => exact nofun
  | cons a rest ih =>
    rw [List.mapM_cons]
    refine (h a List.mem_cons_self).bind fun b hb => ?_
    refine (ih fun c hc => h c (List.mem_cons_of_mem _ hc)).bind fun bs hbs => ?_
    exact meets_pure (List.forall_mem_cons.2 ⟨hb, hbs⟩)

/-- Two readings with results have one together. -/
theorem bind_eq_ok {m : Read α} {a : α} (hm : m = .ok a) {k : α → Read β} {b : β}
    (hk : k a = .ok b) : (m >>= k) = .ok b := by
  rw [hm]
  exact hk

/-- A reading of two steps has a result only if the first step has one. -/
theorem exists_of_bind_eq_ok {m : Read α} {k : α → Read β} {b : β} (h : (m >>= k) = .ok b) :
    ∃ a, m = .ok a ∧ k a = .ok b := by
  cases m with
  | ok a => exact ⟨a, rfl, h⟩
  | error f => cases h

/-- A result is what it is made into. -/
theorem map_eq_ok {m : Read α} {a : α} (hm : m = .ok a) (f : α → β) :
    Except.map f m = .ok (f a) := by
  rw [hm]
  rfl

/-- What is computed of a result is seen of the reading. -/
theorem exists_of_map_toOption {m : Read α} {f : α → β} {b : β}
    (h : m.toOption.map f = some b) : ∃ a, m = .ok a ∧ f a = b := by
  cases m with
  | ok a => exact ⟨a, rfl, Option.some.inj h⟩
  | error failure => cases h

/-- Items that are read one by one are read as a list. -/
theorem itemsFrom_eq_ok {path : Path} {read : α → Path → Read β} {P : α → β → Prop}
    {as : List α} {bs : List β} (hP : List.Forall₂ P as bs)
    (h : ∀ b ∈ bs, ∀ a, P a b → ∀ p, read a p = .ok b) (index : Nat) :
    itemsFrom path read index as = .ok bs := by
  induction hP generalizing index with
  | nil => rfl
  | @cons a b as bs hab _ ih =>
    have hfirst := h b List.mem_cons_self a hab (path.item index)
    have hrest := ih (fun c hc => h c (List.mem_cons_of_mem b hc)) (index + 1)
    exact bind_eq_ok hfirst (bind_eq_ok hrest rfl)

/-- **A list is read,** every item at whatever path. -/
theorem items_eq_ok {path : Path} {read : α → Path → Read β} {P : α → β → Prop}
    {as : List α} {bs : List β} (hP : List.Forall₂ P as bs)
    (h : ∀ b ∈ bs, ∀ a, P a b → ∀ p, read a p = .ok b) : items path read as = .ok bs :=
  itemsFrom_eq_ok hP h 0

/-- A list is read as what it was written from. -/
theorem items_map_eq_ok {path : Path} {read : α → Path → Read β} {encode : β → α} {bs : List β}
    (h : ∀ b ∈ bs, ∀ p, read (encode b) p = .ok b) : items path read (bs.map encode) = .ok bs := by
  have hmap : List.Forall₂ (fun a b => a = encode b) (bs.map encode) bs :=
    List.forall₂_map_left_iff.2 (List.forall₂_same.2 fun _ _ => rfl)
  exact items_eq_ok hmap fun b hb a ha p => ha ▸ h b hb p

/-- So are readings that carry their own paths. -/
theorem mapM_eq_ok {f : α → Read β} {P : α → β → Prop} {as : List α} {bs : List β}
    (hP : List.Forall₂ P as bs) (h : ∀ b ∈ bs, ∀ a, P a b → f a = .ok b) :
    as.mapM f = .ok bs := by
  induction hP with
  | nil => rfl
  | @cons a b as bs hab _ ih =>
    have hfirst := h b List.mem_cons_self a hab
    have hrest := ih fun c hc => h c (List.mem_cons_of_mem b hc)
    rw [List.mapM_cons]
    exact bind_eq_ok hfirst (bind_eq_ok hrest rfl)

end Read
end FortranExpr
