/-
# Fixtures are well founded

A document that can be read declares scopes, symbols and checks, each entry in terms of
entries above it.  So nothing in a fixture goes round in a circle, and nothing leads out of it.

| from | step | ends |
| --- | --- | --- |
| a scope | to its parent, which was made before | at the global scope |
| a symbol | to the symbol that it is an alias of, which was declared before | at the symbol that it denotes, which is no alias |
| a check | to its scope, and to any symbol in its expression | in the fixture |
-/

import FortranExpr.Proofs.Fixture.Load

namespace FortranExpr
namespace Fixture

open Loaded (DeclaresCheck)

/-- A fixture is what a document declares, entry by entry, and every entry rests on entries
before it. -/
structure IsWellFounded (document : Json) (f : Fixture) : Prop where
  /-- Scopes and symbols are those of the document, and refer to earlier ones. -/
  declared : f.loaded.IsReadFrom (document.listed "scopes") (document.listed "symbols")
  /-- Checks are those of the document, and stay in the fixture. -/
  checks : List.Forall₂ f.loaded.DeclaresCheck (document.listed "checks") f.checks
  /-- From any scope, the parents lead to the global scope. -/
  climbs : ∀ s ∈ f.loaded.scopes.values,
    Relation.ReflTransGen (fun s p => s.parent? = some p) s .global
  /-- From any symbol, the aliases lead to a symbol of the fixture that is none. -/
  denotes : ∀ s ∈ f.loaded.symbols.values, s.ultimate ∈ f.loaded.symbols.values ∧
    Relation.ReflTransGen Symbol.IsAliasOf s s.ultimate ∧ s.ultimate.details.target? = none

/-- From any scope that was read, the parents lead to the global scope. -/
theorem climbs_to_global {l : Loaded} {scopes symbols : List Json}
    (hl : l.IsReadFrom scopes symbols) {s : Scope} (hs : s ∈ l.scopes.values) :
    Relation.ReflTransGen (fun s p => s.parent? = some p) s .global := by
  obtain ⟨top, _, hclimb, htop⟩ := hl.parents.exists_end s hs
  cases top with
  | global => exact hclimb
  | child parent => exact absurd rfl (htop parent)

/-- From any symbol that was read, the aliases lead to what it denotes. -/
theorem leads_to_ultimate {l : Loaded} {scopes symbols : List Json}
    (hl : l.IsReadFrom scopes symbols) {s : Symbol} (hs : s ∈ l.symbols.values) :
    s.ultimate ∈ l.symbols.values ∧ Relation.ReflTransGen Symbol.IsAliasOf s s.ultimate ∧
      s.ultimate.details.target? = none := by
  have haliases : EachAfter Symbol.IsAliasOf l.symbols.values :=
    hl.references.mono fun s t h => .inl h
  obtain ⟨u, hu, hchain, hend⟩ := haliases.exists_end s hs
  have hnone : u.details.target? = none := Option.eq_none_iff_forall_ne_some.2 hend
  have hultimate : s.ultimate = u :=
    (Symbol.ultimate_eq_of_reflTransGen hchain).trans (Symbol.ultimate_of_target?_eq_none hnone)
  rw [hultimate]
  exact ⟨hu, hchain, hnone⟩

/-- **Every fixture is well founded.** -/
theorem isWellFounded_of_ofJson {file : Option String} {document : Json} {f : Fixture}
    (h : ofJson file document = .ok f) : f.IsWellFounded document := by
  obtain ⟨hl, -, hchecks⟩ := (ofJson_meets file document).of_eq_ok h
  have hdeclared := hchecks.imp fun _ _ hcheck => hcheck.toDeclaresCheck
  exact ⟨hl, hdeclared, fun _ => climbs_to_global hl, fun _ => leads_to_ultimate hl⟩

/-- A module variable, known under another name inside a procedure of the module, where it
stands in an initial value. -/
def hostAssociation : Json :=
  .obj [
    ("scopes", .arr [
      .obj [("id", .str "m"), ("kind", .str "module")],
      .obj [("id", .str "p"), ("kind", .str "subprogram"), ("parent", .str "m")]]),
    ("symbols", .arr [
      .obj [("name", .str "n"), ("scope", .str "m"), ("details", .obj [("kind", .str "object")])],
      .obj [("name", .str "k"), ("scope", .str "p"),
        ("details", .obj [("kind", .str "hostAssoc"), ("symbol", .str "n")])],
      .obj [("name", .str "a"), ("scope", .str "p"),
        ("details", .obj [("kind", .str "object"),
          ("init", .obj [("node", .str "symbol"), ("symbol", .str "k")])])]]),
    ("checks", .arr [
      .obj [("name", .str "c"), ("scope", .str "p"),
        ("expr", .obj [("node", .str "symbol"), ("symbol", .str "a")])]])]

theorem hostAssociation_isWellFounded :
    ∃ f, ofJson none hostAssociation = .ok f ∧
      f.loaded.symbols.values.map (fun s => (s.name, s.ultimate.name)) =
        [("n", "n"), ("k", "n"), ("a", "a")] ∧
      f.IsWellFounded hostAssociation := by
  have hread : ((ofJson none hostAssociation).toOption.map fun f =>
      f.loaded.symbols.values.map fun s => (s.name, s.ultimate.name)) =
      some [("n", "n"), ("k", "n"), ("a", "a")] := by
    decide +kernel
  cases h : ofJson none hostAssociation with
  | ok f =>
    rw [h] at hread
    exact ⟨f, rfl, Option.some.inj hread, isWellFounded_of_ofJson h⟩
  | error failure =>
    rw [h] at hread
    exact nomatch hread

end Fixture
end FortranExpr
