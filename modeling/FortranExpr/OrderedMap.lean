/-
# Maps in order of first insertion

A map is the list of its entries, one for each key.  Inserting under a key that is
present replaces the value and keeps the place; a new key goes to the end.

| operation | keys afterwards |
| --- | --- |
| `insert k v`, `k` present | unchanged |
| `insert k v`, `k` new | `keys ++ [k]` |
-/

namespace FortranExpr

/-- Entries in order of first insertion, one for each key. -/
structure OrderedMap (α β : Type) where
  toList : List (α × β)
  distinct : (toList.map Prod.fst).Nodup

namespace OrderedMap

variable {α β γ : Type}

/-- The map without entries. -/
def empty : OrderedMap α β := ⟨[], List.nodup_nil⟩

instance : EmptyCollection (OrderedMap α β) := ⟨empty⟩

instance : Inhabited (OrderedMap α β) := ⟨empty⟩

/-- The keys in order of first insertion. -/
def keys (m : OrderedMap α β) : List α := m.toList.map Prod.fst

/-- The values in the order of their keys. -/
def values (m : OrderedMap α β) : List β := m.toList.map Prod.snd

/-- The number of entries. -/
def size (m : OrderedMap α β) : Nat := m.toList.length

variable [DecidableEq α]

/-- The first value stored under a key. -/
def lookup? (k : α) : List (α × β) → Option β
  | [] => none
  | (a, b) :: rest => if a = k then some b else lookup? k rest

/-- The value stored under a key. -/
def get? (m : OrderedMap α β) (k : α) : Option β := lookup? k m.toList

/-- A key is present. -/
def contains (m : OrderedMap α β) (k : α) : Bool := (m.get? k).isSome

/-- Replaces the value of the first entry for `k`, or adds an entry at the end. -/
def insertEntry (k : α) (v : β) : List (α × β) → List (α × β)
  | [] => [(k, v)]
  | (a, b) :: rest => if a = k then (k, v) :: rest else (a, b) :: insertEntry k v rest

/-- A key that is there keeps its place, and a new one goes to the end. -/
theorem map_fst_insertEntry (k : α) (v : β) (l : List (α × β)) :
    (insertEntry k v l).map Prod.fst =
      if k ∈ l.map Prod.fst then l.map Prod.fst else l.map Prod.fst ++ [k] := by
  induction l with
  | nil => simp [insertEntry]
  | cons e rest ih =>
    obtain ⟨a, b⟩ := e
    by_cases h : a = k
    · subst h; simp [insertEntry]
    · have h' : ¬k = a := fun e => h e.symm
      simp only [insertEntry, if_neg h, List.map_cons, ih, List.mem_cons, h', false_or]
      split <;> simp

/-- So no key comes twice. -/
theorem nodup_insertEntry (k : α) (v : β) {l : List (α × β)} (h : (l.map Prod.fst).Nodup) :
    ((insertEntry k v l).map Prod.fst).Nodup := by
  rw [map_fst_insertEntry]
  split
  · exact h
  · rename_i hk
    rw [List.nodup_append]
    refine ⟨h, by simp, ?_⟩
    intro a ha b hb
    rw [List.mem_singleton] at hb
    subst hb
    exact fun e => hk (e ▸ ha)

/-- Stores a value under a key. -/
def insert (m : OrderedMap α β) (k : α) (v : β) : OrderedMap α β :=
  ⟨insertEntry k v m.toList, nodup_insertEntry k v m.distinct⟩

/-- Stores the entries of a list one after another. -/
def ofList (entries : List (α × β)) : OrderedMap α β :=
  entries.foldl (fun m e => m.insert e.1 e.2) empty

/-- The keys after an insertion. -/
theorem keys_insert (m : OrderedMap α β) (k : α) (v : β) :
    (m.insert k v).keys = if k ∈ m.keys then m.keys else m.keys ++ [k] :=
  map_fst_insertEntry k v m.toList

/-- An insertion is seen under its own key and no other. -/
theorem lookup?_insertEntry (k a : α) (v : β) (l : List (α × β)) :
    lookup? a (insertEntry k v l) = if k = a then some v else lookup? a l := by
  induction l with
  | nil => simp [insertEntry, lookup?]
  | cons e rest ih =>
    obtain ⟨b, w⟩ := e
    by_cases h : b = k
    · subst h
      by_cases ha : b = a <;> simp [insertEntry, lookup?, ha]
    · by_cases ha : b = a
      · subst ha
        simp [insertEntry, lookup?, h, show ¬k = b from fun e => h e.symm]
      · simp [insertEntry, lookup?, h, ha, ih]

/-- The value under a key after an insertion. -/
theorem get?_insert (m : OrderedMap α β) (k a : α) (v : β) :
    (m.insert k v).get? a = if k = a then some v else m.get? a :=
  lookup?_insertEntry k a v m.toList

/-- An insertion brings no entry but its own. -/
theorem mem_insertEntry {k : α} {v : β} {e : α × β} {l : List (α × β)}
    (h : e ∈ insertEntry k v l) : e = (k, v) ∨ e ∈ l := by
  induction l with
  | nil => simpa [insertEntry] using h
  | cons d rest ih =>
    obtain ⟨a, b⟩ := d
    by_cases hk : a = k
    · simp only [insertEntry, if_pos hk, List.mem_cons] at h ⊢
      rcases h with h | h
      · exact .inl h
      · exact .inr (.inr h)
    · simp only [insertEntry, if_neg hk, List.mem_cons] at h ⊢
      rcases h with h | h
      · exact .inr (.inl h)
      · exact (ih h).imp id .inr

/-- Nor do many of them. -/
theorem mem_foldl_insert {e : α × β} (entries : List (α × β)) (m : OrderedMap α β)
    (h : e ∈ (entries.foldl (fun m e => m.insert e.1 e.2) m).toList) :
    e ∈ m.toList ∨ e ∈ entries := by
  induction entries generalizing m with
  | nil => exact .inl h
  | cons d rest ih =>
    rcases ih _ h with h | h
    · rcases mem_insertEntry h with h | h
      · exact .inr (h ▸ List.mem_cons_self)
      · exact .inl h
    · exact .inr (List.mem_cons_of_mem _ h)

/-- A map made of entries holds none but those. -/
theorem mem_of_mem_ofList {e : α × β} {entries : List (α × β)}
    (h : e ∈ (ofList entries).toList) : e ∈ entries := by
  rcases mem_foldl_insert entries empty h with h | h
  · exact absurd h List.not_mem_nil
  · exact h

theorem get?_empty (a : α) : (empty : OrderedMap α β).get? a = none := rfl

end OrderedMap
end FortranExpr
