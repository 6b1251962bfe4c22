/-
# Reading a fixture

The sections are read item by item, and every item adds to what is loaded an entry that
refers to what is loaded already.

| after | is loaded, in the order of the document |
| --- | --- |
| `scopes` | the global scope, then a scope for each item, inside an earlier one |
| `symbols` | a symbol for each item, in one of these scopes, declared by earlier symbols |
| `checks` | a check for each item, in one of these scopes, over these symbols |

`ofJson_meets` says so of every document that is a fixture, and of every other document that
reading fails for a cause that is found in it.
-/

import FortranExpr.Fixture.Load
import FortranExpr.Proofs.Fixture.Expression
import FortranExpr.Proofs.Fixture.Order

namespace FortranExpr

open Failure (HasCause)
open Read (Meets meets_pure meets_items meets_items_forall meets_mapM)

/-- An item of the document declares a scope under an id. -/
def DeclaresScope (item : Json) (entry : String × Scope) : Prop :=
  item.get? "id" = some (.str entry.1) ∧ entry.2.name = entry.1 ∧
    item.get? "kind" = some (.str (Vocabulary.word entry.2.kind))

/-- An item of the document declares a symbol, under its name if it gives no other id. -/
def DeclaresSymbol (item : Json) (entry : String × Symbol) : Prop :=
  item.get? "name" = some (.str entry.2.name) ∧
    (item.get? "id" = some (.str entry.1) ∨
      entry.1 = entry.2.name ∧ (item.get? "id" = none ∨ item.get? "id" = some .null))

/-- What is loaded was declared by items of the document, every entry after those that it
refers to. -/
structure Loaded.IsReadFrom (l : Loaded) (scopes symbols : List Json) : Prop where
  scopes : ∃ entries, l.scopes.toList = ("global", .global) :: entries ∧
    List.Forall₂ DeclaresScope scopes entries
  symbols : List.Forall₂ DeclaresSymbol symbols l.symbols.toList
  parents : EachAfter (fun s p => s.parent? = some p) l.scopes.values
  owners : ∀ s ∈ l.symbols.values, s.owner ∈ l.scopes.values
  references : EachAfter (fun s t => s.details.RefersTo t) l.symbols.values

variable {document : Json} {path : Path}

namespace Loaded

variable {l : Loaded} {scopes symbols : List Json}

theorem isReadFrom_initial : initial.IsReadFrom [] [] where
  scopes := ⟨[], rfl, .nil⟩
  symbols := .nil
  parents := EachAfter.nil.concat nofun
  owners := nofun
  references := .nil

theorem IsReadFrom.get?_global (hl : l.IsReadFrom scopes symbols) :
    l.scopes.get? "global" = some .global := by
  obtain ⟨entries, hentries, _⟩ := hl.scopes
  exact OrderedMap.mem_toList_iff.1 (hentries ▸ List.mem_cons_self)

theorem scope_meets_get? {id : String}
    (h : l.scopes.get? id = none → path.resolve? document = some (.str id)) :
    (l.scope id path).Meets (fun s => l.scopes.get? id = some s) (HasCause document) := by
  unfold scope
  split
  · exact ‹_›
  · exact .unknownId (h ‹_›)

theorem scope_meets {id : String}
    (h : l.scopes.get? id = none → path.resolve? document = some (.str id)) :
    (l.scope id path).Meets (· ∈ l.scopes.values) (HasCause document) :=
  (scope_meets_get? h).mono fun _ => OrderedMap.mem_values_of_get?

/-- A scope that a record names, or the global one. -/
theorem scope_meets_of_idOr (hl : l.IsReadFrom scopes symbols) {record : Json}
    (h : path.IsRecord document record) {key id : String}
    (hid : record.get? key = some (.str id) ∨
      id = "global" ∧ (record.get? key = none ∨ record.get? key = some .null)) :
    (l.scope id (path.member key)).Meets (· ∈ l.scopes.values) (HasCause document) := by
  refine scope_meets fun hnone => ?_
  rcases hid with hid | ⟨rfl, _⟩
  · exact (Path.resolve?_member h.resolve key).trans hid
  · rw [hl.get?_global] at hnone
    cases hnone

/-- A scope is added: it is made inside one that is there, under an id that is new. -/
inductive AddsScope (l : Loaded) (item : Json) : Loaded → Prop where
  | mk {parent : Scope} {kind : ScopeKind} {id : String}
      (declares : DeclaresScope item (id, (l.declarations.makeChild parent kind id).1))
      (new : l.scopes.get? id = none) (known : parent ∈ l.scopes.values) :
      AddsScope l item
        { l with
          declarations := (l.declarations.makeChild parent kind id).2
          scopes := l.scopes.insert id (l.declarations.makeChild parent kind id).1 }

theorem readScope_adds (hl : l.IsReadFrom scopes symbols) {item : Json}
    (h : path.resolve? document = some item) :
    (l.readScope item path).Meets (l.AddsScope item) (HasCause document) := by
  refine (Field.object_meets h (.value h)).bind fun _ hrecord => ?_
  obtain rfl := Option.some.inj (h.symm.trans hrecord.resolve)
  refine (Field.string_meets hrecord "id").bind fun id hid => ?_
  split
  · exact .duplicate ((Path.resolve?_member h "id").trans hid)
  · rename_i hnew
    refine (Field.word_meets hrecord "kind").bind fun kind hkind => ?_
    refine (Field.idOr_meets hrecord "parent" "global").bind fun parentId hparentId => ?_
    refine (scope_meets_of_idOr hl hrecord hparentId).bind fun parent hparent => ?_
    exact meets_pure
      (.mk ⟨hid, rfl, hkind⟩ (OrderedMap.get?_eq_none_of_contains_eq_false hnew) hparent)

/-- **A scope is added** inside one that is there. -/
theorem readScope_meets (hl : l.IsReadFrom scopes symbols) {item : Json}
    (h : path.resolve? document = some item) :
    (l.readScope item path).Meets (·.IsReadFrom (scopes ++ [item]) symbols)
      (HasCause document) := by
  refine (readScope_adds hl h).mono ?_
  rintro _ ⟨declares, new, known⟩
  rename_i parent kind id
  obtain ⟨entries, hentries, hdeclared⟩ := hl.scopes
  have hvalues := OrderedMap.values_insert_of_get?_eq_none
    (l.declarations.makeChild parent kind id).1 new
  refine ⟨⟨entries ++ [(id, (l.declarations.makeChild parent kind id).1)], ?_, ?_⟩,
    hl.symbols, ?_, ?_, hl.references⟩
  · exact (OrderedMap.toList_insert_of_get?_eq_none _ new).trans (hentries ▸ rfl)
  · exact List.rel_append hdeclared (.cons declares .nil)
  · show EachAfter _ (OrderedMap.values _)
    rw [hvalues]
    refine hl.parents.concat fun p hp => ?_
    exact Option.some.inj hp ▸ known
  · intro s hs
    show _ ∈ OrderedMap.values _
    rw [hvalues]
    exact List.mem_append_left _ (hl.owners s hs)

/-- The words of a list, any one of which may be quoted. -/
theorem words_meets {α : Type} [Vocabulary α] {record : Json} (h : path.IsRecord document record)
    (key : String) (hq : ∀ j, ((path.member key).item j).IsQuoted document) :
    (Read.items (path.member key) (fun a p => (Field.wordOf (some a) p : Read α))
      (record.listed key)).Meets (fun _ => True) (HasCause document) := by
  refine Meets.mono (meets_items_forall (R := fun _ => True) fun j a ha => ?_) fun _ _ => trivial
  have hplace := Field.getElem?_listed h key ha
  exact (Field.wordOf_meets hplace (.value hplace) (hq j)).mono fun _ _ => trivial

/-- The characteristics of a procedure. -/
theorem readCharacteristics_meets {record : Json} (h : path.IsRecord document record)
    (hq : ∀ j, (((path.member "result").member "attrs").item j).IsQuoted document) :
    (readCharacteristics record path).Meets (fun _ => True) (HasCause document) := by
  unfold readCharacteristics
  split
  · trivial
  · rename_i v hv
    have hresult := (Path.resolve?_member h.resolve "result").trans hv
    refine (Field.object_meets hresult (.value hresult)).bind fun result hrecord => ?_
    refine (Field.array_meets hrecord "attrs").bind fun names hnames => ?_
    subst hnames
    refine (words_meets hrecord "attrs" hq).bind fun attrs _ => ?_
    exact (Field.flag_meets hrecord "procedurePointer").bind fun _ _ => trivial

/-- The initial value of a declaration is read over symbols that are there. -/
def InitRead (l : Loaded) (declared : ObjectDetails Symbol) : Prop :=
  ∀ e, declared.init = some e → (Item.expr e).IsRead l.symbols.values

/-- The declaration of a data object. -/
theorem readObject_meets {record : Json} (h : path.IsRecord document record)
    (hq : (path.member "shape").IsQuoted document) :
    (l.readObject record path).Meets l.InitRead (HasCause document) := by
  refine (Field.count_meets h "rank" 0).bind fun rank _ => ?_
  refine (Field.count_meets h "corank" 0).bind fun corank _ => ?_
  -- Each field with a default splits the rest of the reading, so the rest comes first.
  extract_lets afterShape
  have hshape (shape : ShapeKind) : (afterShape shape).Meets l.InitRead (HasCause document) := by
    refine (Field.flag_meets h "dummy").bind fun isDummy _ => ?_
    extract_lets afterCommon
    have hcommon (block : Option String) :
        (afterCommon block).Meets l.InitRead (HasCause document) := by
      unfold afterCommon
      split
      · exact meets_pure nofun
      · rename_i v hv
        have hinit : (readExpr l.symbols v (path.member "init")).Meets
            (fun e => (Item.expr e).IsRead l.symbols.values) (HasCause document) :=
          readExpr_meets ((Path.resolve?_member h.resolve "init").trans hv)
        refine Meets.bind (Q := fun init => ∀ e, init = some e → (Item.expr e).IsRead _)
          (hinit.map ?_) fun init hread => meets_pure hread
        exact fun e he e' h' => Option.some.inj h' ▸ he
    split
    · exact hcommon none
    · exact hcommon _
    · exact .expected (h.reaches_member "common")
  split
  · exact hshape _
  · exact hshape _
  · exact (Field.wordOf_meets (Path.resolve?_member h.resolve "shape")
      (h.reaches_member "shape") hq).bind fun shape _ => hshape shape

/-- What a symbol denotes refers to symbols that are there, and its initial value is read over
these. -/
structure ReadsDetails (l : Loaded) (d : Details Symbol) : Prop where
  refers : ∀ t, d.RefersTo t → t ∈ l.symbols.values
  initial : ∀ declared, d.object? = some declared → l.InitRead declared

theorem readsDetails_object {declared : ObjectDetails Symbol} (h : l.InitRead declared) :
    l.ReadsDetails (.object declared) where
  refers := by
    rintro t (ht | ⟨_, e, hobject, hinit, hmentions⟩)
    · cases ht
    · obtain rfl := Details.object.inj hobject
      exact Expr.over_iff_mentions.1 (h e hinit).over t hmentions
  initial _ hobject := Option.some.inj hobject ▸ h

theorem readsDetails_of_object?_eq_none {d : Details Symbol} (hobject : d.object? = none)
    (htarget : ∀ t, d.target? = some t → t ∈ l.symbols.values) : l.ReadsDetails d where
  refers := by
    rintro t (ht | ⟨_, _, rfl, _⟩)
    · exact htarget t ht
    · cases hobject
  initial _ hobject' := nomatch hobject.symm.trans hobject'

/-- What a symbol denotes is read. -/
theorem readDetails_meets {i : Nat} {record : Json}
    (h : (Path.details i).IsRecord document record) :
    (l.readDetails record (Path.details i)).Meets l.ReadsDetails (HasCause document) := by
  refine (Field.word_meets h "kind").bind fun kind hkind => ?_
  cases kind with
  | object =>
    exact (readObject_meets h (.shape h hkind)).map fun _ hread => readsDetails_object hread
  | procedure =>
    refine (Field.flag_meets h "dummy").bind fun isDummy _ => ?_
    refine (readCharacteristics_meets h fun j => .symbolResult j h hkind).bind fun _ _ => ?_
    exact meets_pure (readsDetails_of_object?_eq_none rfl nofun)
  | use | hostAssoc =>
    refine (SymbolIds.field_meets h "symbol").map fun target htarget => ?_
    exact readsDetails_of_object?_eq_none rfl fun t ht => Option.some.inj ht ▸ htarget
  | typeParam =>
    dsimp only
    split
    · exact meets_pure (readsDetails_of_object?_eq_none rfl nofun)
    · exact meets_pure (readsDetails_of_object?_eq_none rfl nofun)
    · exact .expected (h.reaches_member "attr")
  | derivedType => exact meets_pure (readsDetails_of_object?_eq_none rfl nofun)

/-- A symbol is added: it is declared in the scope whose id the item gives, by symbols that are
there, under an id that is new. -/
inductive AddsSymbol (l : Loaded) (item : Json) : Loaded → Prop where
  | mk {scope : Scope} {name id scopeId : String} {details : Details Symbol} {attrs : List Attr}
      (declares : DeclaresSymbol item (id, (l.declarations.declare scope name details attrs).1))
      (new : l.symbols.get? id = none) (place : item.get? "scope" = some (.str scopeId))
      (known : l.scopes.get? scopeId = some scope)
      (reads : l.ReadsDetails details) :
      AddsSymbol l item
        { l with
          declarations := (l.declarations.declare scope name details attrs).2
          symbols := l.symbols.insert id (l.declarations.declare scope name details attrs).1 }

theorem readSymbol_adds {i : Nat} {item : Json}
    (h : ((Path.root.member "symbols").item i).resolve? document = some item) :
    (l.readSymbol item ((Path.root.member "symbols").item i)).Meets (l.AddsSymbol item)
      (HasCause document) := by
  refine (Field.object_meets h (.value h)).bind fun _ hrecord => ?_
  obtain rfl := Option.some.inj (h.symm.trans hrecord.resolve)
  refine (Field.string_meets hrecord "name").bind fun name hname => ?_
  refine (Field.idOr_meets hrecord "id" name).bind fun id hid => ?_
  split
  · exact .duplicate h
  · rename_i hnew
    refine (Field.string_meets hrecord "scope").bind fun scopeId hscopeId => ?_
    refine (scope_meets_get? fun _ => (Path.resolve?_member h "scope").trans hscopeId).bind
      fun scope hscope => ?_
    refine (Field.array_meets hrecord "attrs").bind fun names hnames => ?_
    subst hnames
    refine (words_meets hrecord "attrs" (.attribute i)).bind fun attrs _ => ?_
    refine (Field.object_meets (Path.resolve?_member h "details")
      (hrecord.reaches_member "details")).bind fun record hdetails => ?_
    refine (readDetails_meets hdetails).bind fun details hreads => ?_
    exact meets_pure (.mk ⟨hname, hid⟩ (OrderedMap.get?_eq_none_of_contains_eq_false hnew)
      hscopeId hscope hreads)

/-- **A symbol is added** to a scope that is there, declared by symbols that are there. -/
theorem readSymbol_meets (hl : l.IsReadFrom scopes symbols) {i : Nat} {item : Json}
    (h : ((Path.root.member "symbols").item i).resolve? document = some item) :
    (l.readSymbol item ((Path.root.member "symbols").item i)).Meets
      (·.IsReadFrom scopes (symbols ++ [item])) (HasCause document) := by
  refine (readSymbol_adds h).mono ?_
  rintro _ ⟨declares, new, place, known, reads⟩
  have hvalues (s : Symbol) := OrderedMap.values_insert_of_get?_eq_none s new
  refine ⟨hl.scopes, ?_, hl.parents, ?_, ?_⟩
  · show List.Forall₂ _ _ (OrderedMap.toList _)
    rw [OrderedMap.toList_insert_of_get?_eq_none _ new]
    exact List.rel_append hl.symbols (.cons declares .nil)
  · show ∀ s ∈ OrderedMap.values _, _
    rw [hvalues]
    exact List.forall_mem_append.2
      ⟨hl.owners, List.forall_mem_singleton.2 (OrderedMap.mem_values_of_get? known)⟩
  · show EachAfter _ (OrderedMap.values _)
    rw [hvalues]
    exact hl.references.concat reads.refers

/-- Initial values are read over symbols that are there. -/
def InitialsRead (l : Loaded) : Prop :=
  ∀ s ∈ l.symbols.values, ∀ declared, s.details.object? = some declared → l.InitRead declared

/-- Before any symbol is read there are no initial values. -/
theorem IsReadFrom.initialsRead (hl : l.IsReadFrom scopes []) : l.InitialsRead := by
  have hnone : l.symbols.values = [] :=
    congrArg (List.map Prod.snd) (List.forall₂_nil_left_iff.1 hl.symbols)
  rw [InitialsRead, hnone]
  exact nofun

/-- The symbols that are there stay when a symbol is added. -/
theorem readSymbol_initials (hl : l.InitialsRead) {i : Nat} {item : Json}
    (h : ((Path.root.member "symbols").item i).resolve? document = some item) :
    (l.readSymbol item ((Path.root.member "symbols").item i)).Meets (·.InitialsRead)
      (HasCause document) := by
  refine (readSymbol_adds h).mono ?_
  rintro _ ⟨-, new, -, -, reads⟩
  have hvalues (s : Symbol) := OrderedMap.values_insert_of_get?_eq_none s new
  intro s hs declared hobject e hinit
  show Item.IsRead (OrderedMap.values _) _
  rw [hvalues]
  have hbefore : (Item.expr e).IsRead l.symbols.values := by
    rcases List.mem_append.1 (hvalues _ ▸ hs) with hs | hs
    · exact hl s hs declared hobject e hinit
    · obtain rfl := List.mem_singleton.1 hs
      exact reads.initial declared hobject e hinit
  exact hbefore.mono fun s hs => List.mem_append_left _ hs

/-- **A section is read item by item,** each added to what the items before it left. -/
theorem readFrom_meets {read : Loaded → Json → Path → Read Loaded}
    {P : List Json → Loaded → Prop} {E : Failure → Prop} {items : List Json}
    (hstep : ∀ done l item, items[done.length]? = some item → P done l →
      (read l item (path.item done.length)).Meets (P (done ++ [item])) E)
    (rest : List Json) : ∀ {done l}, done ++ rest = items → P done l →
      (readFrom path read done.length l rest).Meets (P items) E := by
  induction rest with
  | nil =>
    intro done l hitems hl
    exact (List.append_nil done ▸ hitems) ▸ hl
  | cons item rest ih =>
    intro done l hitems hl
    have hitem : items[done.length]? = some item := by rw [← hitems]; simp
    refine (hstep done l item hitem hl).bind fun next hnext => ?_
    have hlength : (done ++ [item]).length = done.length + 1 := List.length_append
    exact hlength ▸ ih ((List.append_assoc done [item] rest).trans hitems) hnext

/-- A section of the document, or the empty one. -/
theorem readSection_meets {key : String} {read : Loaded → Json → Path → Read Loaded}
    {P : List Json → Loaded → Prop} (hdocument : Path.root.IsRecord document document)
    (hstep : ∀ done l item,
      ((Path.root.member key).item done.length).resolve? document = some item → P done l →
      (read l item ((Path.root.member key).item done.length)).Meets (P (done ++ [item]))
        (HasCause document))
    (hl : P [] l) :
    (l.readSection document key read).Meets (P (document.listed key)) (HasCause document) := by
  refine (Field.array_meets hdocument key).bind fun items hitems => ?_
  subst hitems
  have hitems (done : List Json) (l : Loaded) (item : Json)
      (hitem : (document.listed key)[done.length]? = some item) :=
    hstep done l item (Field.getElem?_listed hdocument key hitem)
  exact readFrom_meets hitems _ (List.nil_append _) hl

/-- The place of a check. -/
theorem readLocation_meets {file : Option String} {v : Json}
    (h : path.resolve? document = some v) :
    (readLocation file v path).Meets (fun _ => True) (HasCause document) := by
  refine (Field.object_meets h (.value h)).bind fun _ hrecord => ?_
  refine (Field.count_meets hrecord "line" 1).bind fun line _ => ?_
  exact (Field.count_meets hrecord "column" 1).bind fun column _ => trivial

/-- A check that an item of the document declares: it is made in a scope that is there, of an
expression over symbols that are there. -/
structure DeclaresCheck (l : Loaded) (item : Json) (check : Check) : Prop where
  name : item.get? "name" = some (.str check.name)
  scope : check.scope ∈ l.scopes.values
  expr : (Item.expr check.expr).Over l.symbols.values

/-- A check as it is read. -/
structure ReadsCheck (l : Loaded) (item : Json) (check : Check) : Prop extends
    l.DeclaresCheck item check where
  reads : (Item.expr check.expr).IsRead l.symbols.values

/-- A check is read. -/
theorem readCheck_meets (hl : l.IsReadFrom scopes symbols) {file : Option String} {item : Json}
    (h : path.resolve? document = some item) :
    (l.readCheck file item path).Meets (l.ReadsCheck item) (HasCause document) := by
  refine (Field.object_meets h (.value h)).bind fun _ hrecord => ?_
  obtain rfl := Option.some.inj (h.symm.trans hrecord.resolve)
  refine (Field.string_meets hrecord "name").bind fun name hname => ?_
  refine (Field.idOr_meets hrecord "scope" "global").bind fun scopeId hscopeId => ?_
  refine (scope_meets_of_idOr hl hrecord hscopeId).bind fun scope hscope => ?_
  extract_lets afterExpr
  have hexpr (e : Expr Symbol) (he : (Item.expr e).IsRead l.symbols.values) :
      (afterExpr e).Meets (l.ReadsCheck item) (HasCause document) := by
    unfold afterExpr
    split
    · exact meets_pure ⟨⟨hname, hscope, he.over⟩, he⟩
    · rename_i v hv
      refine ((readLocation_meets ((Path.resolve?_member h "at").trans hv)).map
        (R := fun _ => True) fun _ _ => trivial).bind fun at? _ => ?_
      exact meets_pure ⟨⟨hname, hscope, he.over⟩, he⟩
  split
  · rename_i v hv
    exact (readExpr_meets ((Path.resolve?_member h "expr").trans hv)).bind hexpr
  · exact .expected (hrecord.reaches_member "expr")

/-- **The checks are read,** in the order of the document. -/
theorem readChecks_meets (hl : l.IsReadFrom scopes symbols) {file : Option String}
    (hdocument : Path.root.IsRecord document document) :
    (l.readChecks file document).Meets
      (List.Forall₂ l.ReadsCheck (document.listed "checks")) (HasCause document) := by
  refine (Field.array_meets hdocument "checks").bind fun items hitems => ?_
  subst hitems
  exact meets_items fun i item hitem =>
    readCheck_meets hl (Field.getElem?_listed hdocument "checks" hitem)

end Loaded

namespace Fixture

open Loaded

/-- The table of intrinsic procedures. -/
theorem readIntrinsics_meets (hdocument : Path.root.IsRecord document document) :
    (readIntrinsics document).Meets (fun _ => True) (HasCause document) := by
  unfold readIntrinsics
  split
  · trivial
  · rename_i v hv
    have hplace := (Path.resolve?_member hdocument.resolve "intrinsics").trans hv
    refine (Field.object_meets hplace (.value hplace)).bind fun table htable => ?_
    refine (meets_mapM (R := fun _ => True) ?_).bind fun _ _ => trivial
    rintro ⟨name, entry⟩ hentry
    have hmember := (Path.resolve?_member htable.resolve name).trans
      (Json.mem_members_iff.1 hentry)
    refine (Field.object_meets hmember (.value hmember)).bind fun record hrecord => ?_
    exact (readCharacteristics_meets hrecord (.intrinsicResult name)).bind fun _ _ => trivial

/-- **A document is read section by section:** what every scope, then every symbol keeps holds of
what is loaded in the end, and the checks are read over that. -/
theorem ofJson_meets_of_sections {file : Option String} {P Q : List Json → Loaded → Prop}
    {R : Loaded → List Check → Prop}
    (hscope : ∀ done l item,
      ((Path.root.member "scopes").item done.length).resolve? document = some item → P done l →
      (l.readScope item ((Path.root.member "scopes").item done.length)).Meets (P (done ++ [item]))
        (HasCause document))
    (hsymbol : ∀ done l item,
      ((Path.root.member "symbols").item done.length).resolve? document = some item → Q done l →
      (l.readSymbol item ((Path.root.member "symbols").item done.length)).Meets
        (Q (done ++ [item])) (HasCause document))
    (hchecks : Path.root.IsRecord document document → ∀ l, Q (document.listed "symbols") l →
      (l.readChecks file document).Meets (R l) (HasCause document))
    (hinitial : P [] initial) (hbetween : ∀ l, P (document.listed "scopes") l → Q [] l) :
    (ofJson file document).Meets
      (fun f => Q (document.listed "symbols") f.loaded ∧ R f.loaded f.checks)
      (HasCause document) := by
  have hroot : Path.root.resolve? document = some document := rfl
  refine (Field.object_meets hroot (.value hroot)).bind fun _ hdocument => ?_
  obtain rfl := Option.some.inj hdocument.resolve
  refine (readSection_meets hdocument hscope hinitial).bind fun l hscopes => ?_
  refine (readSection_meets hdocument hsymbol (hbetween l hscopes)).bind fun l hsymbols => ?_
  refine (readIntrinsics_meets hdocument).bind fun intrinsics _ => ?_
  exact (hchecks hdocument l hsymbols).bind fun checks hread => meets_pure ⟨hsymbols, hread⟩

/-- A fixture as it is read from a document. -/
structure IsReadFrom (document : Json) (f : Fixture) : Prop where
  declared : f.loaded.IsReadFrom (document.listed "scopes") (document.listed "symbols")
  initials : f.loaded.InitialsRead
  checks : List.Forall₂ f.loaded.ReadsCheck (document.listed "checks") f.checks

/-- **A document is read** into a fixture that it declares, or fails for a cause in it. -/
theorem ofJson_meets (file : Option String) (document : Json) :
    (ofJson file document).Meets (·.IsReadFrom document) (HasCause document) := by
  refine (ofJson_meets_of_sections
    (P := fun done l => l.IsReadFrom done [])
    (Q := fun done l => l.IsReadFrom (document.listed "scopes") done ∧ l.InitialsRead)
    (R := fun l => List.Forall₂ l.ReadsCheck (document.listed "checks"))
    (fun _ _ _ h hl => readScope_meets hl h) (fun _ _ _ h hl => ?_)
    (fun hdocument _ hl => readChecks_meets hl.1 hdocument)
    isReadFrom_initial fun _ hl => ⟨hl, hl.initialsRead⟩).mono ?_
  · exact (readSymbol_meets hl.1 h).and (readSymbol_initials hl.2 h)
  · exact fun _ ⟨⟨hl, hinitials⟩, hchecks⟩ => ⟨hl, hinitials, hchecks⟩

end Fixture
end FortranExpr
