/-
# Documents that declare more

A document may go on declaring scopes and symbols behind those of another one.  The scopes and
symbols of the first document then stay what they are, but for the serial number of a symbol,
and the checks give the same reports (`Fixture.run_extended`).  A further symbol may well take
the place of an earlier one in the table of its scope: no check looks a name up there.

| read so far | of the first document | of the other one |
| --- | --- | --- |
| the scopes of the first | `l` | `l` |
| the further scopes | `l` | at least the scopes of `l`, and its symbols |
| the symbols of the first | `n` | at least the scopes of `n`, and symbols of the same outlines |
| the further symbols | `n` | at least the scopes and the symbols of `n` |
-/

import FortranExpr.Proofs.Fixture.Load
import FortranExpr.Proofs.Fixture.LoadSideBySide

namespace FortranExpr

/-- The other document has the same intrinsic procedures and checks, and may list further scopes
and further symbols. -/
structure Json.IsExtendedBy (document extended : Json) : Prop where
  scopes : document.listed "scopes" <+: extended.listed "scopes"
  symbols : document.listed "symbols" <+: extended.listed "symbols"
  intrinsics : extended.get? "intrinsics" = document.get? "intrinsics"
  checks : extended.get? "checks" = document.get? "checks"

theorem Read.meets_trivial {α : Type} (m : Read α) : m.Meets (fun _ => True) fun _ => True := by
  cases m <;> trivial

namespace Loaded

open Read (meets_pure meets_trivial)

variable {ρ : Renaming} {l l' n : Loaded} {path : Path}

/-! ### Further entries -/

/-- A further scope leaves the others and all symbols alone. -/
theorem readScope_covers (hscopes : ScopesCover ρ l l') (hsymbols : SymbolsMirror ρ l l')
    (item : Json) :
    (l'.readScope item path).Meets
      (fun n => ScopesCover ρ l n ∧ SymbolsMirror ρ l n) fun _ => True := by
  refine (meets_trivial _).bind fun record _ => ?_
  refine (meets_trivial _).bind fun id _ => ?_
  split
  · trivial
  · rename_i hnew
    refine (meets_trivial _).bind fun kind _ => ?_
    refine (meets_trivial _).bind fun parentId _ => ?_
    refine (meets_trivial _).bind fun parent _ => ?_
    exact meets_pure ⟨fun key s hs =>
      OrderedMap.get?_insert_of_not_contains hnew _ (hscopes key s hs), hsymbols⟩

/-- A further symbol leaves the others and all scopes alone. -/
theorem readSymbol_covers (hscopes : ScopesCover ρ l l') (hsymbols : SymbolsCover ρ l l')
    (item : Json) :
    (l'.readSymbol item path).Meets
      (fun n => ScopesCover ρ l n ∧ SymbolsCover ρ l n) fun _ => True := by
  refine (meets_trivial _).bind fun record _ => ?_
  refine (meets_trivial _).bind fun name _ => ?_
  refine (meets_trivial _).bind fun id _ => ?_
  split
  · trivial
  · rename_i hnew
    refine (meets_trivial _).bind fun scopeId _ => ?_
    refine (meets_trivial _).bind fun scope _ => ?_
    refine (meets_trivial _).bind fun names _ => ?_
    refine (meets_trivial _).bind fun attrs _ => ?_
    refine (meets_trivial _).bind fun details _ => ?_
    refine (meets_trivial _).bind fun denoted _ => ?_
    refine meets_pure ⟨hscopes, fun key s hs => ?_⟩
    obtain ⟨s', hs', houtline⟩ := hsymbols key s hs
    exact ⟨s', OrderedMap.get?_insert_of_not_contains hnew _ hs', houtline⟩

/-! ### Sections with further items -/

/-- The items of a section are read up to some point, and the others then. -/
theorem readFrom_append (read : Loaded → Json → Path → Read Loaded) (first rest : List Json)
    (index : Nat) :
    readFrom path read index l (first ++ rest) =
      readFrom path read index l first >>= fun n =>
        readFrom path read (index + first.length) n rest := by
  induction first generalizing l index with
  | nil => rfl
  | cons item first ih =>
    rw [List.cons_append, readFrom, readFrom, bind_assoc]
    refine congrArg (read l item (path.item index) >>= ·) (funext fun next => ?_)
    rw [ih, List.length_cons, Nat.add_right_comm, Nat.add_assoc]

theorem readSection_eq_ok {document : Json} {key : String}
    {read : Loaded → Json → Path → Read Loaded} (h : l.readSection document key read = .ok n) :
    readFrom (Path.root.member key) read 0 l (document.listed key) = .ok n := by
  obtain ⟨items, hitems, h⟩ := Read.exists_of_bind_eq_ok h
  obtain rfl := Field.eq_listed_of_array_eq_ok hitems
  exact h

/-- A section with further items is read like the section without them, and then goes on. -/
theorem exists_of_readSection_append {document extended : Json} {key : String}
    {read : Loaded → Json → Path → Read Loaded}
    (hlisted : document.listed key <+: extended.listed key)
    (h : l.readSection extended key read = .ok n) :
    ∃ middle index further,
      readFrom (Path.root.member key) read 0 l (document.listed key) = .ok middle ∧
        readFrom (Path.root.member key) read index middle further = .ok n := by
  obtain ⟨further, hfurther⟩ := hlisted
  have hread := readSection_eq_ok h
  rw [← hfurther, readFrom_append] at hread
  obtain ⟨middle, hmiddle, hrest⟩ := Read.exists_of_bind_eq_ok hread
  exact ⟨middle, _, further, hmiddle, hrest⟩

theorem of_readFrom_eq_ok {P : Loaded → Prop} {read : Loaded → Json → Path → Read Loaded}
    (hstep : ∀ l item path, P l → (read l item path).Meets P fun _ => True) {items : List Json}
    {index : Nat} (hl : P l) (h : readFrom path read index l items = .ok n) : P n := by
  induction items generalizing l index with
  | nil =>
    cases h
    exact hl
  | cons item rest ih =>
    obtain ⟨next, hnext, hrest⟩ := Read.exists_of_bind_eq_ok h
    exact ih ((hstep l item _ hl).of_eq_ok hnext) hrest

end Loaded

namespace Fixture

open Loaded

variable {file : Option String} {document extended : Json} {f f' : Fixture}

/-- A document that is read is read section by section. -/
theorem exists_of_ofJson_eq_ok (h : ofJson file document = .ok f) :
    (∃ l, initial.readSection document "scopes" readScope = .ok l ∧
      l.readSection document "symbols" readSymbol = .ok f.loaded) ∧
    readIntrinsics document = .ok f.intrinsics ∧
    f.loaded.readChecks file document = .ok f.checks := by
  obtain ⟨_, _, h⟩ := Read.exists_of_bind_eq_ok h
  obtain ⟨l, hscopes, h⟩ := Read.exists_of_bind_eq_ok h
  obtain ⟨n, hsymbols, h⟩ := Read.exists_of_bind_eq_ok h
  obtain ⟨intrinsics, hintrinsics, h⟩ := Read.exists_of_bind_eq_ok h
  obtain ⟨checks, hchecks, h⟩ := Read.exists_of_bind_eq_ok h
  cases h
  exact ⟨⟨l, hscopes, hsymbols⟩, hintrinsics, hchecks⟩

/-- What the document declares is there in the document that declares more. -/
theorem covers_of_isExtendedBy (h : ofJson file document = .ok f)
    (h' : ofJson file extended = .ok f') (hextended : document.IsExtendedBy extended) :
    ScopesCover .refl f.loaded f'.loaded ∧ SymbolsCover .refl f.loaded f'.loaded := by
  obtain ⟨⟨l, hscopes, hsymbols⟩, _⟩ := exists_of_ofJson_eq_ok h
  obtain ⟨⟨l', hscopes', hsymbols'⟩, _⟩ := exists_of_ofJson_eq_ok h'
  obtain ⟨m, i, further, hm, hfurther⟩ :=
    exists_of_readSection_append hextended.scopes hscopes'
  obtain ⟨n, j, more, hn, hmore⟩ :=
    exists_of_readSection_append hextended.symbols hsymbols'
  -- the scopes of the document
  obtain rfl : m = l := Except.ok.inj (hm.symm.trans (readSection_eq_ok hscopes))
  have hsame : ScopesCover .refl m m ∧ SymbolsMirror .refl m m := by
    refine ⟨fun key s hs => hs.trans (congrArg some (Scope.rename_id s).symm), fun key => ?_⟩
    show Option.Rel _ (m.symbols.get? key) (m.symbols.get? key)
    cases m.symbols.get? key with
    | none => exact .none
    | some s => exact .some rfl
  -- further scopes
  have hbefore : ScopesCover .refl m l' ∧ SymbolsMirror .refl m l' :=
    of_readFrom_eq_ok (fun n item path hn => readScope_covers hn.1 hn.2 item) hsame hfurther
  -- the symbols of the document
  obtain ⟨_, hn', hcover⟩ := (readFrom_along readSymbol
    (fun hl hitem => readSymbol_along hl.1 hl.2 (fun _ _ => rfl) hitem)
    (List.forall₂_same.2 fun item _ => Json.Renames.refl .symbol item) 0 hbefore).of_eq_ok
      (readSection_eq_ok hsymbols)
  obtain rfl := Except.ok.inj (hn.symm.trans hn')
  -- further symbols
  exact of_readFrom_eq_ok (fun n item path hn => readSymbol_covers hn.1 hn.2 item)
    ⟨hcover.1, hcover.2.cover⟩ hmore

/-- **Further declarations change no report.** -/
theorem run_extended (h : ofJson file document = .ok f) (h' : ofJson file extended = .ok f')
    (hextended : document.IsExtendedBy extended) (selection : Selection) :
    f'.run selection = f.run selection := by
  obtain ⟨hscopes, hsymbols⟩ := covers_of_isExtendedBy h h' hextended
  obtain ⟨_, hintrinsics, hchecks⟩ := exists_of_ofJson_eq_ok h
  obtain ⟨_, hintrinsics', hchecks'⟩ := exists_of_ofJson_eq_ok h'
  have htable : f'.intrinsics = f.intrinsics := by
    rw [readIntrinsics, hextended.intrinsics] at hintrinsics'
    exact Except.ok.inj (hintrinsics'.symm.trans hintrinsics)
  have hfacing : Option.Rel (Json.Renames .refl .checks) (document.get? "checks")
      (extended.get? "checks") := by
    rw [hextended.checks]
    cases document.get? "checks" with
    | none => exact .none
    | some v => exact .some (Json.Renames.refl .checks v)
  obtain ⟨checks, hread, hrun⟩ :=
    (run_readChecks_along hscopes hsymbols file f.intrinsics hfacing).of_eq_ok hchecks
  obtain rfl : f'.checks = checks := Except.ok.inj (hchecks'.symm.trans hread)
  rw [run, run, htable]
  exact hrun selection

/-- A module with a procedure declares the name `n` under each of the ids, and the first of them
is checked. -/
def declaredUnder (ids : List String) (procedures : List String) : Json :=
  .obj [
    ("scopes", .arr (.obj [("id", .str "m"), ("kind", .str "module")] ::
      procedures.map fun id =>
        .obj [("id", .str id), ("kind", .str "subprogram"), ("parent", .str "m")])),
    ("symbols", .arr (ids.map fun id =>
      .obj [("name", .str "n"), ("id", .str id), ("scope", .str "m"),
        ("details", .obj [("kind", .str "object")])])),
    ("checks", .arr [.obj [("name", .str "c"), ("scope", .str "m"),
      ("expr", .obj [("node", .str "symbol"), ("symbol", .str "n")])]])]

/-- A second declaration of a name takes the place of the first one in the table of its scope,
and the report on the first one stays. -/
theorem run_extended_declaredUnder :
    ∃ f f', ofJson none (declaredUnder ["n"] []) = .ok f ∧
      ofJson none (declaredUnder ["n", "other"] ["p"]) = .ok f' ∧
      (f'.loaded.declarations.tables.values.map fun t => t.values.map (·.serial)) = [[1]] ∧
      ∀ selection, f'.run selection = f.run selection := by
  obtain ⟨f, hf, _⟩ := Read.exists_of_map_toOption
    (show (ofJson none (declaredUnder ["n"] [])).toOption.map (·.checks.length) = some 1 by
      decide +kernel)
  obtain ⟨f', hf', htables⟩ := Read.exists_of_map_toOption
    (show (ofJson none (declaredUnder ["n", "other"] ["p"])).toOption.map (fun f' =>
      f'.loaded.declarations.tables.values.map fun t => t.values.map (·.serial)) =
        some [[1]] by decide +kernel)
  have hextended : (declaredUnder ["n"] []).IsExtendedBy (declaredUnder ["n", "other"] ["p"]) :=
    ⟨⟨_, rfl⟩, ⟨_, rfl⟩, rfl, rfl⟩
  exact ⟨f, f', hf, hf', htables, run_extended hf hf' hextended⟩

end Fixture
end FortranExpr
