/-
# Two indexes of the symbols

While a document is read, a symbol is put under its name into the table of its scope, and under
its id among all symbols.  A name may be declared again in its scope, and the table then has the
later symbol only; an id may not, and the symbols by id are all that were declared.

| document | by name, in the scope | by id |
| --- | --- | --- |
| an item with a new name | one more name | one more entry |
| an item with a name that the scope has | the name, with the new symbol | one more entry |

Both indexes are told from one log of the declarations, an entry for each item (`IsLogged`), and
`tables_hold_last_declarations` says what they hold.
-/

import FortranExpr.Proofs.Declarations
import FortranExpr.Proofs.Fixture.Load

namespace FortranExpr

open Failure (HasCause)

/-- An item of the document makes a declaration: under the name that it gives, in the scope whose
id it gives. -/
def MakesDeclaration (scopes : OrderedMap String Scope) (item : Json) (e : Declaration) : Prop :=
  item.get? "name" = some (.str e.name) ∧
    ∃ id, item.get? "scope" = some (.str id) ∧ scopes.get? id = some e.scope

/-- What is loaded is told by a log of declarations, one for each item. -/
structure Loaded.IsLogged (l : Loaded) (symbols : List Json) (log : List Declaration) : Prop where
  reached : l.declarations.Reached log
  /-- The scopes by id are those that were made. -/
  scopes : l.scopes.values = l.declarations.scopes
  declarations : List.Forall₂ (MakesDeclaration l.scopes) symbols log
  /-- The symbols by id are those that were declared. -/
  symbols : l.symbols.values = log.map (·.symbol)

namespace Loaded

variable {l : Loaded} {document item : Json} {path : Path} {log : List Declaration}

theorem isLogged_initial : initial.IsLogged [] [] where
  reached := .empty
  scopes := rfl
  declarations := .nil
  symbols := rfl

/-- A scope that is read is made, and nothing is declared. -/
theorem readScope_isLogged {scopes : List Json} (hread : l.IsReadFrom scopes [])
    (hl : l.IsLogged [] []) (h : path.resolve? document = some item) :
    (l.readScope item path).Meets (·.IsLogged [] []) (HasCause document) := by
  refine (readScope_adds hread h).mono ?_
  rintro _ ⟨-, new, known⟩
  refine ⟨hl.reached.makeChild (hl.scopes ▸ known) _ _, ?_, .nil, hl.symbols⟩
  refine (OrderedMap.values_insert_of_get?_eq_none _ new).trans ?_
  rw [hl.scopes]
  rfl

/-- **A symbol that is read is declared,** whether or not its name is new in its scope. -/
theorem readSymbol_isLogged {symbols : List Json} {i : Nat} (hl : l.IsLogged symbols log)
    (h : ((Path.root.member "symbols").item i).resolve? document = some item) :
    (l.readSymbol item ((Path.root.member "symbols").item i)).Meets
      (fun n => ∃ log, n.IsLogged (symbols ++ [item]) log) (HasCause document) := by
  refine (readSymbol_adds h).mono ?_
  rintro _ ⟨declares, new, place, known, -⟩
  have hknown := hl.scopes ▸ OrderedMap.mem_values_of_get? known
  refine ⟨_, hl.reached.declare hknown _ _ _, hl.scopes, ?_, ?_⟩
  · exact List.rel_append hl.declarations (.cons ⟨declares.1, _, place, known⟩ .nil)
  · refine (OrderedMap.values_insert_of_get?_eq_none _ new).trans ?_
    rw [hl.symbols, List.map_append]
    rfl

end Loaded

namespace Fixture

open Loaded

/-- **A fixture is logged,** an entry for each item of its document. -/
theorem ofJson_isLogged (file : Option String) (document : Json) :
    (ofJson file document).Meets
      (fun f => f.loaded.IsReadFrom (document.listed "scopes") (document.listed "symbols") ∧
        ∃ log, f.loaded.IsLogged (document.listed "symbols") log)
      (HasCause document) := by
  refine (ofJson_meets_of_sections
    (P := fun done l => l.IsReadFrom done [] ∧ l.IsLogged [] [])
    (Q := fun done l => l.IsReadFrom (document.listed "scopes") done ∧ ∃ log, l.IsLogged done log)
    (R := fun l => List.Forall₂ l.ReadsCheck (document.listed "checks"))
    (fun _ _ _ h hl => (readScope_meets hl.1 h).and (readScope_isLogged hl.1 hl.2 h))
    (fun _ _ _ h hl => ?_) (fun hdocument _ hl => readChecks_meets hl.1 hdocument)
    ⟨isReadFrom_initial, isLogged_initial⟩ fun _ hl => ⟨hl.1, [], hl.2⟩).mono ?_
  · obtain ⟨hread, _, hlogged⟩ := hl
    exact (readSymbol_meets hread h).and (readSymbol_isLogged hlogged h)
  · exact fun _ h => h.1

/-- **The tables hold exactly the last declarations.**

After any steps, the table of every scope holds under each name the symbol that was declared last
in that scope under it, and nothing if none was; its names stand in the order of their first
declarations, and its symbols belong to the scope.  No two scopes are the same, and no two symbols
are.  Declaring in a scope changes no other table; making a scope changes none, and the table of
the new scope is empty.

A fixture that is read is reached by such steps: the scopes by id are all scopes, every item of
`symbols` declares one symbol, under its name in the scope that it names, and the symbols by id
are all of these in the order of the document, those included that no table has any more. -/
theorem tables_hold_last_declarations :
    (∀ (d : Declarations) (log : List Declaration), d.Reached log → d.Records log ∧
      ∀ parent kind name, (d.makeChild parent kind name).1 ∉ d.scopes ∧
        d.table (d.makeChild parent kind name).1 = ∅) ∧
    (∀ (d : Declarations) (scope : Scope) name details attrs other, scope ≠ other →
      (d.declare scope name details attrs).2.table other = d.table other) ∧
    (∀ (d : Declarations) (parent : Scope) kind name scope,
      (d.makeChild parent kind name).2.table scope = d.table scope) ∧
    ∀ file document f, ofJson file document = .ok f →
      List.Forall₂ DeclaresSymbol (document.listed "symbols") f.loaded.symbols.toList ∧
      ∃ log, f.loaded.IsLogged (document.listed "symbols") log ∧
        f.loaded.declarations.Records log := by
  refine ⟨fun d log h => ⟨h.records, fun parent kind name => ?_⟩, ?_, ?_, ?_⟩
  · have hfresh := h.makeChild_fresh parent kind name
    exact ⟨hfresh, h.table_eq_empty hfresh⟩
  · exact fun d scope name details attrs other h =>
      Declarations.table_declare_of_ne d h name details attrs
  · exact Declarations.table_makeChild
  · intro file document f h
    obtain ⟨hread, log, hlog⟩ := (ofJson_isLogged file document).of_eq_ok h
    exact ⟨hread.symbols, log, hlog, hlog.reached.records⟩

/-- A module that declares the name `x`, then `y`, then `x` again. -/
def redeclared : Json :=
  .obj [
    ("scopes", .arr [.obj [("id", .str "m"), ("kind", .str "module")]]),
    ("symbols", .arr ([("x", "first"), ("y", "y"), ("x", "second")].map fun (name, id) =>
      .obj [("name", .str name), ("id", .str id), ("scope", .str "m"),
        ("details", .obj [("kind", .str "object")])]))]

/-- The name declared again keeps its place in the table and has the later symbol; by id, the
earlier one is still there. -/
theorem tables_hold_last_declarations_redeclared :
    ∃ f, ofJson none redeclared = .ok f ∧
      (f.loaded.declarations.tables.values.map fun t => t.toList.map fun e => (e.1, e.2.serial)) =
        [[("x", 2), ("y", 1)]] ∧
      (f.loaded.symbols.toList.map fun e => (e.1, e.2.serial)) =
        [("first", 0), ("y", 1), ("second", 2)] ∧
      ∃ log, f.loaded.IsLogged (redeclared.listed "symbols") log ∧
        f.loaded.declarations.Records log := by
  obtain ⟨f, hf, hboth⟩ := Read.exists_of_map_toOption
    (show (ofJson none redeclared).toOption.map (fun f =>
      (f.loaded.declarations.tables.values.map fun t => t.toList.map fun e => (e.1, e.2.serial),
        f.loaded.symbols.toList.map fun e => (e.1, e.2.serial))) =
      some ([[("x", 2), ("y", 1)]], [("first", 0), ("y", 1), ("second", 2)]) by decide +kernel)
  obtain ⟨htables, hsymbols⟩ := Prod.mk.inj hboth
  obtain ⟨-, log, hlog, -⟩ := tables_hold_last_declarations.2.2.2 none redeclared f hf
  exact ⟨f, hf, htables, hsymbols, log, hlog,
    (tables_hold_last_declarations.1 _ log hlog.reached).1⟩

end Fixture
end FortranExpr
