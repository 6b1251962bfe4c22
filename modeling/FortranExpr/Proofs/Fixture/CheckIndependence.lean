/-
# Checks by themselves

A check is read and answered without regard to the other checks of its document.  Where it
stands is seen in the path of a failure alone (`Loaded.readCheck_append`).

| the checks of a document | the documents with one of them each |
| --- | --- |
| are read | all of them are read |
| give reports | the reports of each, one after another |
| fail | the first that fails, with another number in the path |
-/

import FortranExpr.Proofs.Fixture.LoadSideBySide
import Mathlib.Data.Nat.Find

namespace FortranExpr

/-! ### The same place elsewhere -/

namespace Path

/-- A path that goes on where another one ends. -/
def append (base : Path) : Path → Path
  | root => base
  | member parent name => (base.append parent).member name
  | item parent index => (base.append parent).item index

/-- The place of a check. -/
def check (i : Nat) : Path := (root.member "checks").item i

end Path

/-- A failure of a reading that began at a place. -/
def Failure.under (base : Path) : Failure → Failure
  | rejected ⟨problem, path⟩ => rejected ⟨problem, base.append path⟩
  | unprintable => unprintable

namespace Loaded

/-- A reading beside the same reading that begins at a place. -/
def sideBySideAt (l : Loaded) (base : Path) : SideBySide Symbol where
  newIds := .refl
  ids := l.symbols
  ids' := l.symbols
  view := id
  view' := id
  Facing path path' := path' = base.append path
  failures := some (Failure.under base)
  member h name := by rw [h, Path.append]
  component h key := by rw [h, Path.append]; rfl
  item h i := by rw [h, Path.append]
  rejected hg _ _ h _ := by
    obtain rfl := Option.some.inj hg
    rw [h, Failure.under]
  unprintable hg := by
    obtain rfl := Option.some.inj hg
    rfl
  symbol h key := by
    have hkey : Renaming.refl.symbol key = key := rfl
    rw [h, hkey, SymbolIds.resolve, SymbolIds.resolve]
    cases l.symbols.get? key with
    | some s => exact ⟨s, rfl, rfl⟩
    | none =>
      intro g hg
      obtain rfl := Option.some.inj hg
      rfl

theorem beside_sideBySideAt (l : Loaded) (base : Path) : l.Beside l (l.sideBySideAt base) where
  ids := rfl
  ids' := rfl
  scope h key := by
    have hkey : (l.sideBySideAt base).newIds.scope key = key := rfl
    rw [h, hkey, Loaded.scope, Loaded.scope]
    cases l.scopes.get? key with
    | some s => exact ⟨s, rfl, (Scope.rename_id s).symm⟩
    | none =>
      intro g hg
      obtain rfl := Option.some.inj hg
      rfl

theorem eq_of_checkBeside {l : Loaded} {base : Path} {c c' : Check}
    (h : CheckBeside (l.sideBySideAt base) c c') : c' = c := by
  have hscope : c'.scope = c.scope := h.scope.trans (Scope.rename_id c.scope)
  have hexpr : c'.expr = c.expr := by
    have hmap : c'.expr.map id = c.expr.map id := h.expr
    rwa [Expr.map_id, Expr.map_id] at hmap
  calc c' = ⟨c'.name, c'.scope, c'.expr, c'.at?⟩ := rfl
    _ = ⟨c.name, c.scope, c.expr, c.at?⟩ := by rw [h.name, hscope, hexpr, h.at?]

/-- **The place of a check is seen in its failure alone.** -/
theorem readCheck_append (l : Loaded) (file : Option String) (item : Json) (base path : Path) :
    l.readCheck file item (base.append path) =
      (l.readCheck file item path).mapError (Failure.under base) := by
  have hpath : (l.sideBySideAt base).Facing path (base.append path) := rfl
  have halong := readCheck_along (l.beside_sideBySideAt base) hpath file
    (Json.Renames.refl .check item)
  cases hread : l.readCheck file item path with
  | ok c =>
    obtain ⟨c', hread', hc⟩ := halong.of_eq_ok hread
    rw [hread', eq_of_checkBeside hc]
    rfl
  | error failure =>
    rw [hread] at halong
    exact halong _ rfl

theorem readCheck_eq_mapError (l : Loaded) (file : Option String) (item : Json) (path : Path) :
    l.readCheck file item path =
      (l.readCheck file item .root).mapError (Failure.under path) :=
  l.readCheck_append file item path .root

end Loaded

/-! ### Items that are read by themselves -/

namespace Read

variable {α β : Type} {read : α → Path → Read β} {own : α → Read β}

/-- A list is read only if every item is read by itself. -/
theorem forall₂_of_itemsFrom_eq_ok {path : Path}
    (hown : ∀ a p, read a p = (own a).mapError (Failure.under p)) {index : Nat} {as : List α}
    {bs : List β} (h : itemsFrom path read index as = .ok bs) :
    List.Forall₂ (fun a b => own a = .ok b) as bs := by
  induction as generalizing index bs with
  | nil =>
    cases h
    exact .nil
  | cons a rest ih =>
    obtain ⟨b, hb, hk⟩ := exists_of_bind_eq_ok h
    obtain ⟨bs, hbs, hk⟩ := exists_of_bind_eq_ok hk
    cases hk
    rw [hown] at hb
    refine .cons ?_ (ih hbs)
    cases ha : own a with
    | ok b' => rw [ha] at hb; exact hb
    | error f => rw [ha] at hb; cases hb

/-- A list fails as its first item does that fails by itself, at the place of that item. -/
theorem itemsFrom_eq_error {path : Path}
    (hown : ∀ a p, read a p = (own a).mapError (Failure.under p)) {index i : Nat} {as : List α}
    {a : α} {f : Failure} (hi : as[i]? = some a) (ha : own a = .error f)
    (hbefore : ∀ j < i, ∀ b, as[j]? = some b → ∃ r, own b = .ok r) :
    itemsFrom path read index as = .error (f.under (path.item (index + i))) := by
  induction as generalizing index i with
  | nil => cases hi
  | cons c rest ih =>
    cases i with
    | zero =>
      obtain rfl : c = a := Option.some.inj hi
      rw [itemsFrom, hown, ha]
      rfl
    | succ i =>
      obtain ⟨r, hr⟩ := hbefore 0 (Nat.zero_lt_succ i) c rfl
      have hrest : itemsFrom path read (index + 1) rest =
          .error (f.under (path.item (index + 1 + i))) :=
        ih hi fun j hj b hb => hbefore (j + 1) (Nat.succ_lt_succ hj) b hb
      rw [itemsFrom, hown, hr, hrest, Nat.add_right_comm, Nat.add_assoc]
      rfl

theorem items_eq_error (path : Path)
    (hown : ∀ a p, read a p = (own a).mapError (Failure.under p)) {i : Nat} {as : List α}
    {a : α} {f : Failure} (hi : as[i]? = some a) (ha : own a = .error f)
    (hbefore : ∀ j < i, ∀ b, as[j]? = some b → ∃ r, own b = .ok r) :
    items path read as = .error (f.under (path.item i)) := by
  rw [items, itemsFrom_eq_error hown hi ha hbefore, Nat.zero_add]

end Read

/-! ### Documents with other checks -/

namespace Json

/-- A document with these checks; the last value that is written under a name counts. -/
def withChecks (document : Json) (checks : List Json) : Json :=
  match document with
  | obj written => obj (written ++ [("checks", arr checks)])
  | v => v

theorem lastUnder?_append_singleton (name key : String) (v : Json)
    (written : List (String × Json)) :
    lastUnder? name (written ++ [(key, v)]) =
      if key = name then some v else lastUnder? name written := by
  induction written with
  | nil => rfl
  | cons e rest ih =>
    rw [List.cons_append, lastUnder?, lastUnder?, ih]
    by_cases hkey : key = name
    · rw [if_pos hkey, if_pos hkey]
    · rw [if_neg hkey, if_neg hkey]

theorem get?_withChecks {document : Json} (hobject : document.isObject = true)
    (checks : List Json) (name : String) :
    (document.withChecks checks).get? name =
      if "checks" = name then some (arr checks) else document.get? name := by
  cases document with
  | obj written => exact lastUnder?_append_singleton name "checks" (arr checks) written
  | _ => cases hobject

end Json

namespace Fixture

variable {file : Option String} {document : Json} {f : Fixture}

/-- What a document declares beside its checks. -/
def readDeclarations (document : Json) : Read (Loaded × IntrinsicTable) := do
  let l ← Loaded.initial.readSection document "scopes" Loaded.readScope
  let l ← l.readSection document "symbols" Loaded.readSymbol
  let intrinsics ← readIntrinsics document
  return (l, intrinsics)

theorem ofJson_withChecks_eq (hobject : document.isObject = true) (checks : List Json) :
    ofJson file (document.withChecks checks) = do
      let (l, intrinsics) ← readDeclarations document
      let checks ← Read.items (Path.root.member "checks") (l.readCheck file) checks
      return ⟨l, intrinsics, checks⟩ := by
  have hget := Json.get?_withChecks hobject checks
  have hsection (l : Loaded) (key : String) (read : Loaded → Json → Path → Read Loaded)
      (hkey : ¬"checks" = key) :
      l.readSection (document.withChecks checks) key read = l.readSection document key read := by
    rw [Loaded.readSection, Field.array, hget, if_neg hkey]
    rfl
  have hintrinsics : readIntrinsics (document.withChecks checks) = readIntrinsics document := by
    rw [readIntrinsics, hget, if_neg (by decide)]
    rfl
  have hchecks (l : Loaded) : l.readChecks file (document.withChecks checks) =
      Read.items (Path.root.member "checks") (l.readCheck file) checks := by
    rw [Loaded.readChecks, Field.array, hget, if_pos rfl]
    rfl
  have hwith : (document.withChecks checks).isObject = true := by
    cases document with
    | obj written => rfl
    | _ => cases hobject
  rw [ofJson, Field.object, if_pos hwith]
  simp only [hsection _ "scopes" _ (by decide), hsection _ "symbols" _ (by decide), hintrinsics,
    hchecks, readDeclarations, bind_assoc, pure_bind]
  rfl

/-- **Reading a document with other checks** is reading these checks. -/
theorem ofJson_withChecks (h : ofJson file (document.withChecks []) = .ok f)
    (checks : List Json) :
    ofJson file (document.withChecks checks) =
      (Read.items (Path.root.member "checks") (f.loaded.readCheck file) checks).map
        fun checks => ⟨f.loaded, f.intrinsics, checks⟩ := by
  have hobject : document.isObject = true := by
    cases document with
    | obj written => rfl
    | _ => cases h
  rw [ofJson_withChecks_eq hobject] at h ⊢
  obtain ⟨⟨l, intrinsics⟩, hdeclared, h⟩ := Read.exists_of_bind_eq_ok h
  cases h
  rw [hdeclared]
  rfl

section SingleChecks

variable (h : ofJson file (document.withChecks []) = .ok f)
include h

/-- The document with one check is read as the check is read by itself. -/
theorem ofJson_withChecks_singleton (c : Json) :
    ofJson file (document.withChecks [c]) =
      ((f.loaded.readCheck file c .root).mapError (Failure.under (.check 0))).map
        fun check => ⟨f.loaded, f.intrinsics, [check]⟩ := by
  rw [ofJson_withChecks h, ← Loaded.readCheck_eq_mapError]
  show Except.map _ (f.loaded.readCheck file c (.check 0) >>= fun check => _) = _
  cases f.loaded.readCheck file c (.check 0) <;> rfl

theorem exists_singleton_eq_ok_iff {c : Json} :
    (∃ part, ofJson file (document.withChecks [c]) = .ok part) ↔
      ∃ check, f.loaded.readCheck file c .root = .ok check := by
  rw [ofJson_withChecks_singleton h]
  cases f.loaded.readCheck file c .root with
  | ok check => exact ⟨fun _ => ⟨check, rfl⟩, fun _ => ⟨_, rfl⟩⟩
  | error failure =>
    constructor <;>
    · rintro ⟨_, hread⟩
      cases hread

/-- A document that is read has the checks that its items are read as by themselves. -/
theorem forall₂_of_ofJson_withChecks {checks : List Json} {g : Fixture}
    (hg : ofJson file (document.withChecks checks) = .ok g) :
    g.intrinsics = f.intrinsics ∧
      List.Forall₂ (fun c check => f.loaded.readCheck file c .root = .ok check) checks
        g.checks := by
  rw [ofJson_withChecks h] at hg
  cases hitems : Read.items (Path.root.member "checks") (f.loaded.readCheck file) checks with
  | ok read =>
    rw [hitems] at hg
    cases hg
    exact ⟨rfl, Read.forall₂_of_itemsFrom_eq_ok (f.loaded.readCheck_eq_mapError file) hitems⟩
  | error failure =>
    rw [hitems] at hg
    cases hg

theorem exists_ofJson_withChecks_eq_ok {checks : List Json}
    (hchecks : ∀ c ∈ checks, ∃ check, f.loaded.readCheck file c .root = .ok check) :
    ∃ g, ofJson file (document.withChecks checks) = .ok g := by
  have hread : ∃ read, List.Forall₂ (fun c check => f.loaded.readCheck file c .root = .ok check)
      checks read := by
    induction checks with
    | nil => exact ⟨[], .nil⟩
    | cons c rest ih =>
      obtain ⟨check, hcheck⟩ := hchecks c List.mem_cons_self
      obtain ⟨read, hread⟩ := ih fun d hd => hchecks d (List.mem_cons_of_mem c hd)
      exact ⟨check :: read, .cons hcheck hread⟩
  obtain ⟨read, hread⟩ := hread
  have hitems : Read.items (Path.root.member "checks") (f.loaded.readCheck file) checks =
      .ok read :=
    Read.items_eq_ok hread fun check _ c hc p => by
      rw [Loaded.readCheck_eq_mapError, hc]
      rfl
  rw [ofJson_withChecks h, hitems]
  exact ⟨_, rfl⟩

/-- The reports of a document are those of its checks, each by itself. -/
theorem run_eq_flatMap {checks : List Json} {g : Fixture}
    (hg : ofJson file (document.withChecks checks) = .ok g) :
    ∃ parts : List Fixture,
      List.Forall₂ (fun c part => ofJson file (document.withChecks [c]) = .ok part) checks parts ∧
        ∀ selection, g.run selection = parts.flatMap fun part => part.run selection := by
  obtain ⟨hintrinsics, hchecks⟩ := forall₂_of_ofJson_withChecks h hg
  refine ⟨g.checks.map fun check => ⟨f.loaded, f.intrinsics, [check]⟩, ?_, fun selection => ?_⟩
  · refine List.forall₂_map_right_iff.2 (hchecks.imp fun c check hc => ?_)
    rw [ofJson_withChecks_singleton h, hc]
    rfl
  · rw [List.flatMap_map, run, hintrinsics]
    exact List.map_eq_flatMap

/-- Checks in another order give the same reports in that order. -/
theorem run_perm {checks permuted : List Json} (hperm : checks.Perm permuted) {g g' : Fixture}
    (hg : ofJson file (document.withChecks checks) = .ok g)
    (hg' : ofJson file (document.withChecks permuted) = .ok g') (selection : Selection) :
    (g.run selection).Perm (g'.run selection) := by
  -- each check gives the same report in both documents
  let report (c : Json) : Option Report :=
    (f.loaded.readCheck file c .root).toOption.map fun check => check.run f.intrinsics selection
  have hreports {checks : List Json} {read : List Check} (hread : List.Forall₂
      (fun c check => f.loaded.readCheck file c .root = .ok check) checks read) :
      checks.filterMap report = read.map fun check => check.run f.intrinsics selection := by
    induction hread with
    | nil => rfl
    | @cons c check _ _ hc _ ih =>
      have hreport : report c = some (check.run f.intrinsics selection) := by
        show Option.map _ (Except.toOption _) = _
        rw [hc]
        rfl
      rw [List.filterMap_cons_some hreport, ih, List.map_cons]
  obtain ⟨hintrinsics, hchecks⟩ := forall₂_of_ofJson_withChecks h hg
  obtain ⟨hintrinsics', hchecks'⟩ := forall₂_of_ofJson_withChecks h hg'
  rw [run, run, hintrinsics, hintrinsics', ← hreports hchecks, ← hreports hchecks']
  exact hperm.filterMap report

/-- The first check that fails by itself makes the document fail, at the place where it is. -/
theorem exists_eq_error_of_first {checks : List Json} {i : Nat} {c : Json} {failure : Failure}
    (hi : checks[i]? = some c)
    (hbefore : ∀ j < i, ∀ d, checks[j]? = some d →
      ∃ part, ofJson file (document.withChecks [d]) = .ok part)
    (hfails : ofJson file (document.withChecks [c]) = .error failure) :
    ∃ own : Failure, failure = own.under (.check 0) ∧
      ofJson file (document.withChecks checks) = .error (own.under (.check i)) := by
  rw [ofJson_withChecks_singleton h] at hfails
  cases hown : f.loaded.readCheck file c .root with
  | ok check =>
    rw [hown] at hfails
    cases hfails
  | error own =>
    rw [hown] at hfails
    refine ⟨own, (Except.error.inj hfails).symm, ?_⟩
    have hitems := Read.items_eq_error (Path.root.member "checks")
      (f.loaded.readCheck_eq_mapError file) hi hown fun j hj d hd =>
        (exists_singleton_eq_ok_iff h).1 (hbefore j hj d hd)
    rw [ofJson_withChecks h, hitems]
    rfl

/-- Of the checks of a document that fails, there is a first one that fails by itself. -/
theorem exists_first_of_eq_error {checks : List Json} {failure : Failure}
    (hfails : ofJson file (document.withChecks checks) = .error failure) :
    ∃ (i : Nat) (c : Json) (single : Failure), checks[i]? = some c ∧
      (∀ j < i, ∀ d, checks[j]? = some d →
        ∃ part, ofJson file (document.withChecks [d]) = .ok part) ∧
      ofJson file (document.withChecks [c]) = .error single := by
  classical
  have hsome : ∃ i : Nat, ∃ c, checks[i]? = some c ∧
      ¬∃ part, ofJson file (document.withChecks [c]) = .ok part := by
    by_contra hnone
    have hall : ∀ c ∈ checks, ∃ check, f.loaded.readCheck file c .root = .ok check := by
      intro c hc
      obtain ⟨i, hi⟩ := List.getElem?_of_mem hc
      by_contra hread
      exact hnone ⟨i, c, hi, fun hpart => hread ((exists_singleton_eq_ok_iff h).1 hpart)⟩
    obtain ⟨g, hg⟩ := exists_ofJson_withChecks_eq_ok h hall
    rw [hg] at hfails
    cases hfails
  obtain ⟨c, hi, hc⟩ := Nat.find_spec hsome
  cases hsingle : ofJson file (document.withChecks [c]) with
  | ok part => exact absurd ⟨part, hsingle⟩ hc
  | error single =>
    refine ⟨Nat.find hsome, c, single, hi, fun j hj d hd => ?_, hsingle⟩
    by_contra hpart
    exact Nat.find_min hsome hj ⟨d, hd, hpart⟩

/-- **Checks are independent of each other.**  A document is read with some checks if and only
if it is read with each of them alone.  Then its reports are those of the documents with one
check, one after another, so other checks in another order give the reports in that order.
Otherwise there is a first check that fails alone, and the document fails as it does with this
check alone, but for the number of the check in the path, whatever checks come after it. -/
theorem checks_independent (checks : List Json) :
    ((∃ g, ofJson file (document.withChecks checks) = .ok g) ↔
      ∀ c ∈ checks, ∃ part, ofJson file (document.withChecks [c]) = .ok part) ∧
    (∀ g, ofJson file (document.withChecks checks) = .ok g → ∃ parts : List Fixture,
      List.Forall₂ (fun c part => ofJson file (document.withChecks [c]) = .ok part) checks parts ∧
        ∀ selection, g.run selection = parts.flatMap fun part => part.run selection) ∧
    (∀ g g' permuted, checks.Perm permuted → ofJson file (document.withChecks checks) = .ok g →
      ofJson file (document.withChecks permuted) = .ok g' →
        ∀ selection, (g.run selection).Perm (g'.run selection)) ∧
    (∀ failure, ofJson file (document.withChecks checks) = .error failure →
      ∃ (i : Nat) (c : Json) (own : Failure), checks[i]? = some c ∧
        (∀ j < i, ∀ d, checks[j]? = some d →
          ∃ part, ofJson file (document.withChecks [d]) = .ok part) ∧
        ofJson file (document.withChecks [c]) = .error (own.under (.check 0)) ∧
        failure = own.under (.check i)) ∧
    ∀ (i : Nat) c failure, checks[i]? = some c →
      (∀ j < i, ∀ d, checks[j]? = some d →
        ∃ part, ofJson file (document.withChecks [d]) = .ok part) →
      ofJson file (document.withChecks [c]) = .error failure →
        ∃ own : Failure, failure = own.under (.check 0) ∧
          ofJson file (document.withChecks checks) = .error (own.under (.check i)) := by
  refine ⟨⟨?_, ?_⟩, fun g hg => run_eq_flatMap h hg, ?_, ?_, ?_⟩
  · rintro ⟨g, hg⟩ c hc
    obtain ⟨_, hchecks⟩ := forall₂_of_ofJson_withChecks h hg
    obtain ⟨i, hi, rfl⟩ := List.getElem_of_mem hc
    exact (exists_singleton_eq_ok_iff h).2
      ⟨_, (List.forall₂_iff_get.1 hchecks).2 i hi (hchecks.length_eq ▸ hi)⟩
  · exact fun hall => exists_ofJson_withChecks_eq_ok h fun c hc =>
      (exists_singleton_eq_ok_iff h).1 (hall c hc)
  · exact fun g g' permuted hperm hg hg' => run_perm h hperm hg hg'
  · intro failure hfails
    obtain ⟨i, c, single, hi, hbefore, hsingle⟩ := exists_first_of_eq_error h hfails
    obtain ⟨own, rfl, hdocument⟩ := exists_eq_error_of_first h hi hbefore hsingle
    exact ⟨i, c, own, hi, hbefore, hsingle, Except.error.inj (hfails.symm.trans hdocument)⟩
  · exact fun i c failure hi hbefore hfails => exists_eq_error_of_first h hi hbefore hfails

end SingleChecks

/-- One variable is declared. -/
def oneVariable : Json :=
  .obj [("symbols", .arr [
    .obj [("name", .str "a"), ("scope", .str "global"),
      ("details", .obj [("kind", .str "object")])]])]

/-- A check of a name. -/
def checkOfName (name : String) : Json :=
  .obj [("name", .str name), ("expr", .obj [("node", .str "symbol"), ("symbol", .str name)])]

/-- The second of three checks is the first to fail; its failure is that of the document with
this check alone, one further on. -/
theorem checks_independent_oneVariable :
    ∃ f, ∃ own : Failure, ofJson none (oneVariable.withChecks []) = .ok f ∧
      ofJson none (oneVariable.withChecks [checkOfName "b"]) = .error (own.under (.check 0)) ∧
      ofJson none (oneVariable.withChecks [checkOfName "a", checkOfName "b", checkOfName "c"]) =
        .error (own.under (.check 1)) := by
  obtain ⟨f, hf, _⟩ := Read.exists_of_map_toOption
    (show (ofJson none (oneVariable.withChecks [])).toOption.map (·.checks.length) = some 0 by
      decide +kernel)
  obtain ⟨part, hfirst, _⟩ := Read.exists_of_map_toOption
    (show (ofJson none (oneVariable.withChecks [checkOfName "a"])).toOption.map
      (·.checks.length) = some 1 by decide +kernel)
  have hsecond : ofJson none (oneVariable.withChecks [checkOfName "b"]) =
      .error (.rejected ⟨.unknownReference .symbol "b",
        (((Path.root.member "checks").item 0).member "expr").member "symbol"⟩) := by
    cbv
  have hindependent := checks_independent hf [checkOfName "a", checkOfName "b", checkOfName "c"]
  have hbefore : ∀ j < 1, ∀ d, [checkOfName "a", checkOfName "b", checkOfName "c"][j]? = some d →
      ∃ part, ofJson none (oneVariable.withChecks [d]) = .ok part := by
    intro j hj d hd
    obtain rfl : j = 0 := Nat.lt_one_iff.1 hj
    obtain rfl : checkOfName "a" = d := Option.some.inj hd
    exact ⟨part, hfirst⟩
  obtain ⟨own, hown, hfails⟩ := hindependent.2.2.2.2 1 (checkOfName "b") _ rfl hbefore hsecond
  exact ⟨f, own, hf, hsecond.trans (congrArg Except.error hown), hfails⟩

end Fixture

end FortranExpr
