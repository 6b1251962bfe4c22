/-
# Ids are names for references

A document in which every symbol has an id of its own gives the same reports under other ids,
as long as the values of components come in the same order (`Fixture.run_renamed`).  They do
for every renaming that gives an array index to an array index alone, and that one
(`Json.keepsOrder_of_arrayIndex?`).

The values of components come in the order of the members of an object, and there array indices
come first: an id that becomes one moves its component to the front
(`Fixture.text_constructorOf_renamed`).

| written | read, printed and visited |
| --- | --- |
| `first`, `second` | `first`, `second` |
| `first`, `0` | `0`, `first` |
-/

import FortranExpr.Proofs.Fixture.Cause
import FortranExpr.Proofs.Fixture.LoadSideBySide
import Mathlib.Logic.Equiv.Basic

namespace FortranExpr

open Json (Renames)
open Loaded

variable {ρ : Renaming} {file : Option String} {document : Json} {f : Fixture}

namespace Loaded

/-- The scopes of a document and the same scopes under other ids. -/
theorem readScopes_along {v' : Json} (hv : Renames ρ .document document v') :
    Read.Along none (fun l l' => ScopesMirror ρ l l' ∧ SymbolsMirror ρ l l')
      (initial.readSection document "scopes" readScope)
      (initial.readSection v' "scopes" readScope) := by
  let S : SideBySide Symbol := sideBySide (symbolsMirror_initial (ρ := ρ)).cover
  have hroot : S.Facing .root .root := trivial
  refine (SideBySide.array_along hroot .scopes (hv.get? "scopes" rfl rfl)).bind
    fun items items' hitems => ?_
  exact readFrom_along readScope (fun hl hitem => readScope_along hl.1 hl.2 hitem) hitems 0
    ⟨scopesMirror_initial, symbolsMirror_initial⟩

/-- The symbols of a document, which all have ids of their own, and the same symbols under other
ids. -/
theorem readSymbols_along {l l' : Loaded} {v' : Json} (hv : Renames ρ .document document v')
    (hids : ∀ item ∈ document.listed "symbols", ∃ id, item.get? "id" = some (.str id))
    (hscopes : ScopesCover ρ l l') (hsymbols : SymbolsMirror ρ l l') :
    Read.Along none (fun n n' => ScopesCover ρ n n' ∧ SymbolsMirror ρ n n')
      (l.readSection document "symbols" readSymbol)
      (l'.readSection v' "symbols" readSymbol) := by
  let S : SideBySide Symbol := sideBySide hsymbols.cover
  have hroot : S.Facing .root .root := trivial
  have hitems := (SideBySide.array_along hroot .symbols (hv.get? "symbols" rfl rfl)).and_left
    (P := fun items => ∀ item ∈ items, ∃ id, item.get? "id" = some (.str id))
    fun items hread => Field.eq_listed_of_array_eq_ok hread ▸ hids
  refine hitems.bind ?_
  rintro items items' ⟨hids, hitems⟩
  refine readFrom_along readSymbol (fun hl hitem => ?_)
    ((List.forall₂_and_left _ _).2 ⟨hids, hitems⟩) 0 ⟨hscopes, hsymbols⟩
  -- a symbol without an id would be known under its name, which stays
  obtain ⟨⟨id, hid⟩, hitem⟩ := hitem
  refine readSymbol_along hl.1 hl.2 (fun habsent => ?_) hitem
  rw [hid] at habsent
  obtain habsent | habsent := habsent <;> cases habsent

end Loaded

namespace Fixture

/-- **A document and the same document under other ids** are read side by side. -/
theorem ofJson_rename_along (file : Option String)
    (hids : ∀ item ∈ document.listed "symbols", ∃ id, item.get? "id" = some (.str id))
    (horder : document.KeepsOrder ρ .document) :
    Read.Along none (fun f f' => ∀ selection, f'.run selection = f.run selection)
      (ofJson file document) (ofJson file (document.rename ρ .document)) := by
  have hv : Renames ρ .document document (document.rename ρ .document) := ⟨rfl, horder⟩
  have hintrinsics : readIntrinsics (document.rename ρ .document) = readIntrinsics document := by
    rw [readIntrinsics, Json.eq_of_rel_plain (hv.get? "intrinsics" rfl rfl)]
    rfl
  let S : SideBySide Symbol := sideBySide (symbolsMirror_initial (ρ := ρ)).cover
  have hroot : S.Facing .root .root := trivial
  refine (SideBySide.object_along hroot (.some hv)).bind fun _ _ _ => ?_
  refine (readScopes_along hv).bind ?_
  rintro l l' ⟨hscopes, hsymbols⟩
  refine (readSymbols_along hv hids hscopes.cover hsymbols).bind ?_
  rintro n n' ⟨hscopes, hsymbols⟩
  rw [hintrinsics]
  refine Read.Along.bind (Q := fun table table' => table' = table) ?_ fun table table' htable => ?_
  · cases readIntrinsics document with
    | ok table => exact ⟨table, rfl, rfl⟩
    | error failure => exact Read.along_error _ _
  · subst htable
    exact (run_readChecks_along hscopes hsymbols.cover file table'
      (hv.get? "checks" rfl rfl)).bind fun checks checks' hrun => Read.along_pure hrun

/-- **Ids are only names for references.**  A document in which every symbol has an id of its
own is read under other ids, too, and gives the same reports, if the values of components come
in the same order under them. -/
theorem run_renamed (h : ofJson file document = .ok f)
    (hids : ∀ item ∈ document.listed "symbols", ∃ id, item.get? "id" = some (.str id))
    (horder : document.KeepsOrder ρ .document) :
    ∃ f', ofJson file (document.rename ρ .document) = .ok f' ∧
      ∀ selection, f'.run selection = f.run selection :=
  (ofJson_rename_along file hids horder).of_eq_ok h

end Fixture

/-- Two ids of symbols change places, and two ids of scopes. -/
def Renaming.swap (a b s t : String) (hs : "global" ≠ s) (ht : "global" ≠ t) : Renaming where
  symbol := Equiv.swap a b
  scope := Equiv.swap s t
  symbol_injective := (Equiv.swap a b).injective
  scope_injective := (Equiv.swap s t).injective
  scope_global := Equiv.swap_apply_of_ne_of_ne hs ht

theorem Renaming.arrayIndex?_swap {a b s t : String} (hs : "global" ≠ s) (ht : "global" ≠ t)
    (h : Json.arrayIndex? a = Json.arrayIndex? b) (id : String) :
    Json.arrayIndex? ((Renaming.swap a b s t hs ht).symbol id) = Json.arrayIndex? id := by
  show Json.arrayIndex? (Equiv.swap a b id) = _
  rw [Equiv.swap_apply_def]
  split_ifs with ha hb
  · rw [ha, h]
  · rw [hb, h]
  · rfl

namespace Fixture

/-- A type with two components, and a constructor of it with the values 1 and 2. -/
def constructorOf (first second : String) : Json :=
  .obj [
    ("scopes", .arr [.obj [("id", .str "t"), ("kind", .str "derivedType")]]),
    ("symbols", .arr [
      .obj [("name", .str "x"), ("id", .str first), ("scope", .str "t"),
        ("details", .obj [("kind", .str "object")])],
      .obj [("name", .str "y"), ("id", .str second), ("scope", .str "t"),
        ("details", .obj [("kind", .str "object")])]]),
    ("checks", .arr [.obj [("name", .str "c"), ("expr", .obj [
      ("node", .str "structureConstructor"),
      ("type", .str "t"),
      ("components", .obj [
        (first, .obj [("node", .str "constant"), ("type", .str "integer"), ("value", .num 1)]),
        (second, .obj [("node", .str "constant"), ("type", .str "integer"),
          ("value", .num (.finite 2))])])])]])]

theorem constructorOf_hasIds (first second : String) :
    ∀ item ∈ (constructorOf first second).listed "symbols",
      ∃ id, item.get? "id" = some (.str id) :=
  List.forall_mem_cons.2 ⟨⟨first, rfl⟩, List.forall_mem_singleton.2 ⟨second, rfl⟩⟩

/-- Words as ids are as good as other words. -/
theorem run_renamed_constructorOf :
    ∃ f f', ofJson none (constructorOf "first" "second") = .ok f ∧
      ofJson none ((constructorOf "first" "second").rename
        (.swap "second" "other" "t" "u" (by decide) (by decide)) .document) = .ok f' ∧
      (f.run ⟨none⟩).map (·.text) = ["t(1, 2)"] ∧
      ∀ selection, f'.run selection = f.run selection := by
  obtain ⟨f, hf, htext⟩ := Read.exists_of_map_toOption
    (show (ofJson none (constructorOf "first" "second")).toOption.map
      (fun f => (f.run ⟨none⟩).map (·.text)) = some ["t(1, 2)"] by decide +kernel)
  have horder : (constructorOf "first" "second").KeepsOrder
      (.swap "second" "other" "t" "u" (by decide) (by decide)) .document :=
    Json.keepsOrder_of_arrayIndex?
      (Renaming.arrayIndex?_swap _ _ (show _ = _ by decide +kernel)) .document _
  obtain ⟨f', hf', hrun⟩ := run_renamed hf (constructorOf_hasIds "first" "second") horder
  exact ⟨f, f', hf, hf', htext, hrun⟩

/-- **An id that becomes an array index** moves the value of its component to the front: the
document is read under the new ids, and the constructor is printed in another order. -/
theorem text_constructorOf_renamed :
    (∀ item ∈ (constructorOf "first" "second").listed "symbols",
      ∃ id, item.get? "id" = some (.str id)) ∧
    ∃ f f', ofJson none (constructorOf "first" "second") = .ok f ∧
      ofJson none ((constructorOf "first" "second").rename
        (.swap "second" "0" "t" "u" (by decide) (by decide)) .document) = .ok f' ∧
      (f.run ⟨none⟩).map (·.text) = ["t(1, 2)"] ∧
      (f'.run ⟨none⟩).map (·.text) = ["t(2, 1)"] := by
  obtain ⟨f, hf, htext⟩ := Read.exists_of_map_toOption
    (show (ofJson none (constructorOf "first" "second")).toOption.map
      (fun f => (f.run ⟨none⟩).map (·.text)) = some ["t(1, 2)"] by decide +kernel)
  obtain ⟨f', hf', htext'⟩ := Read.exists_of_map_toOption
    (show (ofJson none ((constructorOf "first" "second").rename
        (.swap "second" "0" "t" "u" (by decide) (by decide)) .document)).toOption.map
      (fun f => (f.run ⟨none⟩).map (·.text)) = some ["t(2, 1)"] by decide +kernel)
  exact ⟨constructorOf_hasIds "first" "second", f, f', hf, hf', htext, htext'⟩

end Fixture
end FortranExpr
