/-
# What the tables hold

Scopes are made inside scopes that are there, and symbols are declared in them, in any order and
any number of times (`Reached`).  The log of these steps keeps every declaration; the table of a
scope keeps, for each name, the last one.

| step | the table of its scope | other tables | the log |
| --- | --- | --- | --- |
| a scope is made | is empty | unchanged | unchanged |
| a new name is declared | has the name at its end | unchanged | one more entry |
| a name is declared again | has the new symbol in the old place | unchanged | one more entry |

So a table can be told from the log (`SymbolTable.Holds`), and the log has the symbols that no
table has any more.  All scopes here are of one tree; another global scope would have declarations
of its own.
-/

import FortranExpr.Declarations
import FortranExpr.Proofs.OrderedMap
import Mathlib.Data.List.Nodup

namespace FortranExpr

/-- A declaration that was made: in which scope, under which name, and the symbol that it gave. -/
structure Declaration where
  scope : Scope
  name : String
  symbol : Symbol

/-! ### A table and the log -/

/-- The declarations of a log that were made in a scope. -/
def declaredIn (log : List Declaration) (scope : Scope) : List Declaration :=
  log.filter fun e => e.scope = scope

/-- The declarations of a log that were made in a scope under a name. -/
def declaredAs (log : List Declaration) (scope : Scope) (name : String) : List Declaration :=
  (declaredIn log scope).filter fun e => e.name = name

/-- A table holds exactly the last declarations that were made in a scope. -/
structure SymbolTable.Holds (table : SymbolTable) (log : List Declaration) (scope : Scope) :
    Prop where
  /-- Under a name stands the symbol declared last, and nothing if none was declared. -/
  last : ∀ name, table.get? name = (declaredAs log scope name).getLast?.map (·.symbol)
  /-- The names stand in the order of their first declarations. -/
  names : table.keys = ((declaredIn log scope).map (·.name)).eraseDups
  /-- The symbols belong to the scope. -/
  owners : ∀ symbol ∈ table.values, symbol.owner = scope

section Log

variable {log : List Declaration} {e : Declaration} {scope : Scope} {name : String}

theorem declaredIn_concat_of_eq (h : e.scope = scope) :
    declaredIn (log ++ [e]) scope = declaredIn log scope ++ [e] := by
  rw [declaredIn, List.filter_append, List.filter_singleton, decide_eq_true h]
  rfl

theorem declaredIn_concat_of_ne (h : e.scope ≠ scope) :
    declaredIn (log ++ [e]) scope = declaredIn log scope := by
  rw [declaredIn, List.filter_append, List.filter_singleton, decide_eq_false h]
  exact List.append_nil _

theorem getLast?_declaredAs_concat (h : e.scope = scope) :
    (declaredAs (log ++ [e]) scope name).getLast? =
      if e.name = name then some e else (declaredAs log scope name).getLast? := by
  rw [declaredAs, declaredIn_concat_of_eq h, List.filter_append, List.filter_singleton]
  split <;> rename_i hname
  · rw [decide_eq_true hname]
    exact List.getLast?_concat
  · rw [decide_eq_false hname]
    exact congrArg List.getLast? (List.append_nil _)

theorem eraseDups_concat (names : List String) (name : String) :
    (names ++ [name]).eraseDups =
      if name ∈ names.eraseDups then names.eraseDups else names.eraseDups ++ [name] := by
  rw [List.eraseDups_append]
  split <;> rename_i h <;> rw [List.mem_eraseDups] at h
  · simp [List.removeAll, h]
  · simp [List.removeAll, h, List.eraseDups_cons]

end Log

namespace SymbolTable.Holds

variable {table : SymbolTable} {log : List Declaration} {scope : Scope} {e : Declaration}

theorem empty (h : declaredIn log scope = []) : Holds ∅ log scope where
  last name := by rw [declaredAs, h]; rfl
  names := by rw [h]; rfl
  owners := nofun

/-- **A declaration in the scope** is held in the place of an earlier one of its name. -/
theorem insert (ht : table.Holds log scope) (hscope : e.scope = scope)
    (howner : e.symbol.owner = scope) :
    SymbolTable.Holds (OrderedMap.insert table e.name e.symbol) (log ++ [e]) scope where
  last name := by
    rw [OrderedMap.get?_insert, getLast?_declaredAs_concat hscope, ht.last]
    split <;> rfl
  names := by
    rw [OrderedMap.keys_insert, declaredIn_concat_of_eq hscope, List.map_append, ht.names]
    exact (eraseDups_concat _ _).symm
  owners := by
    intro symbol hsymbol
    obtain ⟨entry, hentry, rfl⟩ := List.mem_map.1 hsymbol
    rcases OrderedMap.mem_insertEntry hentry with rfl | hentry
    · exact howner
    · exact ht.owners _ (List.mem_map_of_mem hentry)

/-- **A declaration in another scope** is not seen. -/
theorem skip (ht : table.Holds log scope) (hscope : e.scope ≠ scope) :
    table.Holds (log ++ [e]) scope where
  last name := by rw [declaredAs, declaredIn_concat_of_ne hscope]; exact ht.last name
  names := by rw [declaredIn_concat_of_ne hscope]; exact ht.names
  owners := ht.owners

end SymbolTable.Holds

/-! ### Single steps -/

namespace Declarations

variable {d : Declarations} {log : List Declaration}

/-- All scopes that there are, in the order in which they were made. -/
def scopes (d : Declarations) : List Scope := .global :: d.made

/-- The entry of the log for a symbol that is declared. -/
def logged (d : Declarations) (scope : Scope) (name : String) (details : Details Symbol)
    (attrs : List Attr) : Declaration :=
  ⟨scope, name, (d.declare scope name details attrs).1⟩

/-- What is reached from the global scope by making scopes inside scopes that are there and
declaring symbols in them, and the declarations made on the way. -/
inductive Reached : Declarations → List Declaration → Prop where
  | empty : Reached empty []
  | makeChild {d : Declarations} {log : List Declaration} {parent : Scope}
      (before : Reached d log) (known : parent ∈ d.scopes) (kind : ScopeKind) (name : String) :
      Reached (d.makeChild parent kind name).2 log
  | declare {d : Declarations} {log : List Declaration} {scope : Scope}
      (before : Reached d log) (known : scope ∈ d.scopes) (name : String)
      (details : Details Symbol) (attrs : List Attr) :
      Reached (d.declare scope name details attrs).2 (log ++ [d.logged scope name details attrs])

/-- Making a scope changes no table. -/
theorem table_makeChild (d : Declarations) (parent : Scope) (kind : ScopeKind) (name : String)
    (scope : Scope) : (d.makeChild parent kind name).2.table scope = d.table scope := rfl

theorem table_declare_self (d : Declarations) (scope : Scope) (name : String)
    (details : Details Symbol) (attrs : List Attr) :
    (d.declare scope name details attrs).2.table scope =
      (d.table scope).insert name (d.declare scope name details attrs).1 := by
  show ((d.tables.insert scope _).get? scope).getD ∅ = _
  rw [OrderedMap.get?_insert, if_pos rfl]
  rfl

/-- **Declaring in one scope** changes no other table. -/
theorem table_declare_of_ne (d : Declarations) {scope other : Scope} (h : scope ≠ other)
    (name : String) (details : Details Symbol) (attrs : List Attr) :
    (d.declare scope name details attrs).2.table other = d.table other := by
  show ((d.tables.insert scope _).get? other).getD ∅ = _
  rw [OrderedMap.get?_insert, if_neg h]
  rfl

/-! ### Any number of steps -/

/-- What the declarations have of a log: every table what was declared last in its scope, and
scopes and symbols that are told apart. -/
structure Records (d : Declarations) (log : List Declaration) : Prop where
  tables : ∀ scope, (d.table scope).Holds log scope
  scopes : d.scopes.Nodup
  symbols : log.map (·.symbol.serial) = List.range log.length

/-- What the numbers given to scopes and symbols rest on. -/
structure Numbered (d : Declarations) (log : List Declaration) : Prop where
  made : ∀ s ∈ d.made, ∃ parent serial kind name,
    s = .child parent serial kind name ∧ serial < d.made.length
  declared : d.declared = log.length
  places : ∀ e ∈ log, e.scope ∈ d.scopes

theorem Reached.numbered (h : Reached d log) : d.Numbered log := by
  induction h with
  | empty => exact ⟨nofun, rfl, nofun⟩
  | @makeChild d log parent before known kind name ih =>
    have hlength : (d.makeChild parent kind name).2.made.length = d.made.length + 1 :=
      List.length_append
    refine ⟨fun s hs => ?_, ih.declared, fun e he => ?_⟩
    · rw [hlength]
      rcases List.mem_append.1 hs with hs | hs
      · obtain ⟨parent, serial, kind, name, rfl, hserial⟩ := ih.made s hs
        exact ⟨parent, serial, kind, name, rfl, Nat.lt_succ_of_lt hserial⟩
      · obtain rfl := List.mem_singleton.1 hs
        exact ⟨parent, _, kind, name, rfl, Nat.lt_succ_self _⟩
    · exact List.mem_append_left _ (ih.places e he)
  | @declare d log scope before known name details attrs ih =>
    refine ⟨ih.made, ?_, fun e he => ?_⟩
    · rw [List.length_append, ← ih.declared]
      rfl
    · rcases List.mem_append.1 he with he | he
      · exact ih.places e he
      · obtain rfl := List.mem_singleton.1 he
        exact known

/-- **A scope that is made** was not there before. -/
theorem Reached.makeChild_fresh (h : Reached d log) (parent : Scope) (kind : ScopeKind)
    (name : String) : (d.makeChild parent kind name).1 ∉ d.scopes := by
  intro hmem
  rcases List.mem_cons.1 hmem with hglobal | hmade
  · cases hglobal
  · obtain ⟨_, serial, _, _, heq, hserial⟩ := h.numbered.made _ hmade
    cases heq
    exact Nat.lt_irrefl _ hserial

theorem Reached.declaredIn_eq_nil (h : Reached d log) {scope : Scope} (hnew : scope ∉ d.scopes) :
    declaredIn log scope = [] := by
  rw [declaredIn, List.filter_eq_nil_iff]
  intro e he hscope
  exact hnew (of_decide_eq_true hscope ▸ h.numbered.places e he)

/-- **Every table holds the last declarations,** however it was reached. -/
theorem Reached.holds (h : Reached d log) (scope : Scope) : (d.table scope).Holds log scope := by
  induction h with
  | empty => exact .empty rfl
  | makeChild before known kind name ih => exact ih
  | @declare d log made before known name details attrs ih =>
    by_cases hscope : made = scope
    · subst hscope
      rw [table_declare_self]
      exact ih.insert (e := d.logged made name details attrs) rfl rfl
    · rw [table_declare_of_ne d hscope]
      exact ih.skip hscope

/-- Nothing is declared in a scope that is not there. -/
theorem Reached.table_eq_empty (h : Reached d log) {scope : Scope} (hnew : scope ∉ d.scopes) :
    d.table scope = ∅ := by
  refine OrderedMap.eq_empty_of_keys_eq_nil ?_
  rw [(h.holds scope).names, h.declaredIn_eq_nil hnew]
  rfl

theorem Reached.records (h : Reached d log) : d.Records log := by
  refine ⟨h.holds, ?_, ?_⟩
  · induction h with
    | empty => exact List.pairwise_singleton _ _
    | @makeChild d log parent before known kind name ih =>
      show (d.scopes ++ [(d.makeChild parent kind name).1]).Nodup
      rw [← List.concat_eq_append]
      exact List.Nodup.concat (before.makeChild_fresh parent kind name) ih
    | declare before known name details attrs ih => exact ih
  · induction h with
    | empty => rfl
    | makeChild before known kind name ih => exact ih
    | @declare d log scope before known name details attrs ih =>
      rw [List.map_append, ih, List.length_append]
      show _ ++ [d.declared] = List.range (log.length + 1)
      rw [List.range_succ, before.numbered.declared]

end Declarations
end FortranExpr
