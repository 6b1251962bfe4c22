/-
# Loading side by side

What a document describes, and what it describes under other ids, is loaded entry by entry side
by side.  A scope under its new id is the scope with its new name, and a symbol has the outline
that the symbol under the old id has.

| relation | of what is loaded |
| --- | --- |
| `ScopesMirror` | the same scopes, under their new ids |
| `ScopesCover` | at least these scopes |
| `SymbolsMirror` | symbols under the new ids of the symbols that are there, with their outlines |
| `SymbolsCover` | at least these symbols |

Reading a scope keeps the first, reading a symbol the third (`readScope_along`,
`readSymbol_along`).  Reading a check needs the second and the fourth only
(`readCheck_along`).
-/

import FortranExpr.Fixture.Load
import FortranExpr.Proofs.Analysis.Outline
import FortranExpr.Proofs.Fixture.ExpressionSideBySide

namespace FortranExpr

open Json (Renames)
open Read (Along along_error along_items along_pure)
open SideBySide (expected_along object_along wordOf_along string_along idOr_along array_along
  count_along flag_along text_along word_along)

variable {τ : Type} {S : SideBySide τ} {path path' : Path} {v v' : Json}

namespace Loaded

/-! ### Records of a section -/

section Records

variable (hpath : S.Facing path path')
include hpath

/-- The words of a list. -/
theorem words_along {α : Type} [Vocabulary α] {items items' : List Json}
    (h : List.Forall₂ (Renames S.newIds .plain) items items') :
    S.Along (fun as as' : List α => as' = as)
      (Read.items path (fun a p => Field.wordOf (some a) p) items)
      (Read.items path' (fun a p => Field.wordOf (some a) p) items') := by
  obtain rfl : items = items' :=
    (Read.eq_of_forall₂ (h.imp fun _ _ hu => hu.eq_of_plain)).symm
  have hsame : List.Forall₂ (· = ·) items items := List.forall₂_refl items
  refine Along.mono (along_items hsame (R := fun a a' => a' = a) fun i a a' ha => ?_)
    fun _ _ => Read.eq_of_forall₂
  exact ha ▸ wordOf_along (S.item hpath i) (some a)

/-- The characteristics of a procedure. -/
theorem readCharacteristics_along
    (hresult : Option.Rel (Renames S.newIds .plain) (v.get? "result") (v'.get? "result")) :
    S.Along (fun c c' => c' = c) (readCharacteristics v path) (readCharacteristics v' path') := by
  have hplace := S.member hpath "result"
  unfold readCharacteristics
  generalize v.get? "result" = o at hresult ⊢
  generalize v'.get? "result" = o' at hresult ⊢
  cases hresult with
  | none => exact along_pure rfl
  | some hresult =>
    refine (object_along hplace (.some hresult)).bind fun result result' hrecord => ?_
    refine (array_along hplace .plain (hrecord.get? "attrs" rfl rfl)).bind
      fun names names' hnames => ?_
    refine (words_along (S.member hplace "attrs") hnames).bind fun attrs attrs' hattrs => ?_
    refine (flag_along hplace (hrecord.get? "procedurePointer" rfl rfl)).bind
      fun pointer pointer' hpointer => ?_
    exact along_pure (by rw [hattrs, hpointer])

/-- The place of a check. -/
theorem readLocation_along (file : Option String) (hv : Renames S.newIds .plain v v') :
    S.Along (fun s s' => s' = s) (readLocation file v path) (readLocation file v' path') := by
  refine (object_along hpath (.some hv)).bind fun record record' hrecord => ?_
  refine (count_along hpath (hrecord.get? "line" rfl rfl) 1).bind fun line line' hline => ?_
  refine (count_along hpath (hrecord.get? "column" rfl rfl) 1).bind fun column column' hcolumn => ?_
  exact along_pure (by rw [hline, hcolumn])

end Records

/-- The symbols of the readings are those of what is loaded, and a scope faces the scope that
has its new name. -/
structure Beside (l l' : Loaded) (S : SideBySide τ) : Prop where
  ids : S.ids = l.symbols
  ids' : S.ids' = l'.symbols
  scope {path path' : Path} : S.Facing path path' → ∀ id,
    S.Along (fun s s' => s' = s.rename S.newIds.scope) (l.scope id path)
      (l'.scope (S.newIds.scope id) path')

/-- A check of the same name and place, in the scope that has its new name, and of the same
expression over the views of symbols. -/
structure CheckBeside (S : SideBySide τ) (c c' : Check) : Prop where
  name : c'.name = c.name
  scope : c'.scope = c.scope.rename S.newIds.scope
  expr : c'.expr.map S.view' = c.expr.map S.view
  at? : c'.at? = c.at?

variable {l l' : Loaded} (hl : l.Beside l' S) (hpath : S.Facing path path')
include hl hpath

/-- The declaration of a data object; an initial value is only known to be there. -/
theorem readObject_along (hv : Renames S.newIds .details v v') :
    S.Along (fun d d' => (Details.object d').outline S.view' = (Details.object d).outline S.view)
      (l.readObject v path) (l'.readObject v' path') := by
  have hshape : v'.get? "shape" = v.get? "shape" :=
    Json.eq_of_rel_plain (hv.get? "shape" rfl rfl)
  have hcommon : v'.get? "common" = v.get? "common" :=
    Json.eq_of_rel_plain (hv.get? "common" rfl rfl)
  have hinit := hv.get? "init" rfl rfl
  refine (count_along hpath (hv.get? "rank" rfl rfl) 0).bind fun rank rank' hrank => ?_
  refine (count_along hpath (hv.get? "corank" rfl rfl) 0).bind fun corank corank' hcorank => ?_
  subst hrank hcorank
  extract_lets afterShape afterShape'
  have hafterShape (shape : ShapeKind) : S.Along
      (fun d d' => (Details.object d').outline S.view' = (Details.object d).outline S.view)
      (afterShape shape) (afterShape' shape) := by
    refine (flag_along hpath (hv.get? "dummy" rfl rfl)).bind fun isDummy isDummy' hdummy => ?_
    subst hdummy
    extract_lets afterCommon afterCommon'
    have hafterCommon (block : Option String) : S.Along
        (fun d d' => (Details.object d').outline S.view' = (Details.object d).outline S.view)
        (afterCommon block) (afterCommon' block) := by
      unfold afterCommon afterCommon'
      generalize v.get? "init" = o at hinit ⊢
      generalize v'.get? "init" = o' at hinit ⊢
      cases hinit with
      | none => exact along_pure rfl
      | some hw =>
        have hexpr := readExpr_along hw (S.member hpath "init")
        rw [hl.ids, hl.ids'] at hexpr
        refine Along.bind (Q := fun init init' => init.isSome = true ∧ init'.isSome = true)
          (hexpr.map fun _ _ _ => ⟨rfl, rfl⟩) ?_
        rintro (_ | e) (_ | e') ⟨he, he'⟩
        · cases he
        · cases he
        · cases he'
        · exact along_pure rfl
    rw [hcommon]
    split
    · exact hafterCommon none
    · exact hafterCommon _
    · exact expected_along (S.member hpath "common") _
  rw [hshape]
  split
  · exact hafterShape _
  · exact hafterShape _
  · exact (wordOf_along (S.member hpath "shape") _).bind fun shape shape' hsame =>
      hsame ▸ hafterShape shape

/-- **What a symbol denotes.** -/
theorem readDetails_along (hv : Renames S.newIds .details v v') :
    S.Along (fun d d' => d'.outline S.view' = d.outline S.view) (l.readDetails v path)
      (l'.readDetails v' path') := by
  have hsymbol : S.Along (fun s s' => S.view' s' = S.view s) (l.symbols.field v "symbol" path)
      (l'.symbols.field v' "symbol" path') :=
    hl.ids ▸ hl.ids' ▸ SideBySide.field_along hpath (hv.get? "symbol" rfl rfl)
  refine (word_along hpath (hv.get? "kind" rfl rfl)).bind fun kind kind' hkind => ?_
  subst hkind
  cases kind' with
  | object => exact (readObject_along hl hpath hv).map fun _ _ hd => hd
  | procedure =>
    refine (flag_along hpath (hv.get? "dummy" rfl rfl)).bind fun isDummy isDummy' hdummy => ?_
    refine (readCharacteristics_along hpath (hv.get? "result" rfl rfl)).bind
      fun characteristics characteristics' hcharacteristics => ?_
    exact along_pure (by rw [hdummy, hcharacteristics]; rfl)
  | use => exact hsymbol.map fun s s' hs => congrArg Details.use hs
  | hostAssoc => exact hsymbol.map fun s s' hs => congrArg Details.hostAssoc hs
  | typeParam =>
    have hattr : v'.get? "attr" = v.get? "attr" :=
      Json.eq_of_rel_plain (hv.get? "attr" rfl rfl)
    dsimp only
    rw [hattr]
    split
    · exact along_pure rfl
    · exact along_pure rfl
    · exact expected_along (S.member hpath "attr") _
  | derivedType => exact along_pure rfl

/-- **A check is read along the same check** under other ids. -/
theorem readCheck_along (file : Option String) (hv : Renames S.newIds .check v v') :
    S.Along (CheckBeside S) (l.readCheck file v path) (l'.readCheck file v' path') := by
  refine (object_along hpath (.some hv)).bind fun record record' hrecord => ?_
  refine (text_along hpath (hrecord.get? "name" rfl rfl)).bind fun name name' hname => ?_
  refine (idOr_along hpath .scopeId (hrecord.get? "scope" rfl rfl) fun _ =>
    S.newIds.scope_global.symm).bind fun id id' hid => ?_
  subst hid
  refine (hl.scope (S.member hpath "scope") id).bind fun scope scope' hscope => ?_
  subst hname hscope
  have hexpr := hrecord.get? "expr" rfl rfl
  have hat := hrecord.get? "at" rfl rfl
  extract_lets afterExpr afterExpr'
  have hafterExpr (e e' : Expr Symbol) (he : e'.map S.view' = e.map S.view) :
      S.Along (CheckBeside S) (afterExpr e) (afterExpr' e') := by
    unfold afterExpr afterExpr'
    generalize record.get? "at" = o at hat ⊢
    generalize record'.get? "at" = o' at hat ⊢
    cases hat with
    | none => exact along_pure ⟨rfl, rfl, he, rfl⟩
    | some hw =>
      refine Along.bind (Q := fun a a' => a' = a)
        ((readLocation_along (S.member hpath "at") file hw).map fun s s' hs => congrArg some hs)
        fun at? at?' hat => ?_
      exact along_pure ⟨rfl, rfl, he, hat⟩
  generalize record.get? "expr" = o at hexpr ⊢
  generalize record'.get? "expr" = o' at hexpr ⊢
  cases hexpr with
  | none => exact expected_along (S.member hpath "expr") _
  | some hw =>
    have hread := readExpr_along hw (S.member hpath "expr")
    rw [hl.ids, hl.ids'] at hread
    exact hread.bind hafterExpr

omit hpath in
/-- The checks are read one after another. -/
theorem readChecks_along (file : Option String)
    (h : Option.Rel (Renames S.newIds .checks) (v.get? "checks") (v'.get? "checks"))
    (hroot : S.Facing .root .root) :
    S.Along (List.Forall₂ (CheckBeside S)) (l.readChecks file v) (l'.readChecks file v') := by
  refine (array_along hroot .checks h).bind fun items items' hitems => ?_
  exact along_items hitems fun i c c' hc =>
    readCheck_along hl (S.item (S.member hroot "checks") i) file hc

omit hl hpath

/-! ### What is loaded -/

variable {ρ : Renaming}

/-- The same scopes are loaded, under their new ids and with their new names. -/
structure ScopesMirror (ρ : Renaming) (l l' : Loaded) : Prop where
  get? : ∀ key, l'.scopes.get? (ρ.scope key) = (l.scopes.get? key).map (Scope.rename ρ.scope)
  made : l'.declarations.made.length = l.declarations.made.length

/-- All scopes are loaded, under their new ids and with their new names. -/
def ScopesCover (ρ : Renaming) (l l' : Loaded) : Prop :=
  ∀ key s, l.scopes.get? key = some s → l'.scopes.get? (ρ.scope key) = some (s.rename ρ.scope)

/-- Symbols of the same outlines are loaded, under the new ids. -/
def SymbolsMirror (ρ : Renaming) (l l' : Loaded) : Prop :=
  ∀ key, Option.Rel (fun s s' => s'.outline id = s.outline ρ.scope) (l.symbols.get? key)
    (l'.symbols.get? (ρ.symbol key))

/-- For each symbol one of the same outline is loaded, under the new id. -/
def SymbolsCover (ρ : Renaming) (l l' : Loaded) : Prop :=
  ∀ key s, l.symbols.get? key = some s →
    ∃ s', l'.symbols.get? (ρ.symbol key) = some s' ∧ s'.outline id = s.outline ρ.scope

theorem ScopesMirror.cover (h : ScopesMirror ρ l l') : ScopesCover ρ l l' := by
  intro key s hs
  rw [h.get?, hs]
  rfl

theorem SymbolsMirror.cover (h : SymbolsMirror ρ l l') : SymbolsCover ρ l l' := by
  intro key s hs
  have hkey := h key
  rw [hs] at hkey
  cases hs' : l'.symbols.get? (ρ.symbol key) with
  | none => rw [hs'] at hkey; cases hkey
  | some s' =>
    rw [hs'] at hkey
    cases hkey
    exact ⟨s', rfl, ‹_›⟩

theorem scopesMirror_initial : ScopesMirror ρ initial initial where
  made := rfl
  get? key := by
    have hglobal : "global" = ρ.scope key ↔ "global" = key := by
      conv_lhs => rw [← ρ.scope_global]
      exact ρ.scope_injective.eq_iff
    show (OrderedMap.insert _ _ _).get? _ = ((OrderedMap.insert _ _ _).get? _).map _
    rw [OrderedMap.get?_insert, OrderedMap.get?_insert]
    by_cases hkey : "global" = key
    · rw [if_pos hkey, if_pos (hglobal.2 hkey)]
      rfl
    · rw [if_neg hkey, if_neg fun h => hkey (hglobal.1 h)]
      rfl

theorem symbolsMirror_initial : SymbolsMirror ρ initial initial :=
  fun _ => .none

/-- Readings whose failures do not matter, beside what is loaded. -/
def sideBySide (h : SymbolsCover ρ l l') : SideBySide Symbol where
  newIds := ρ
  ids := l.symbols
  ids' := l'.symbols
  view := Symbol.outline ρ.scope
  view' := Symbol.outline id
  Facing _ _ := True
  failures := none
  member _ _ := trivial
  component _ _ := trivial
  item _ _ := trivial
  rejected := nofun
  unprintable := nofun
  symbol _ key := by
    cases hs : l.symbols.get? key with
    | none =>
      rw [SymbolIds.resolve, hs]
      exact along_error _ _
    | some s =>
      obtain ⟨s', hs', houtline⟩ := h key s hs
      rw [SymbolIds.resolve, SymbolIds.resolve, hs, hs']
      exact ⟨s', rfl, houtline⟩

theorem beside_sideBySide (hscopes : ScopesCover ρ l l') (hsymbols : SymbolsCover ρ l l') :
    l.Beside l' (sideBySide hsymbols) where
  ids := rfl
  ids' := rfl
  scope _ key := by
    cases hs : l.scopes.get? key with
    | none =>
      rw [Loaded.scope, hs]
      exact along_error _ _
    | some s =>
      have hs' : l'.scopes.get? ((sideBySide hsymbols).newIds.scope key) = _ := hscopes key s hs
      rw [Loaded.scope, Loaded.scope, hs, hs']
      exact ⟨_, rfl, rfl⟩

/-- **A scope is added** to what is loaded side by side. -/
theorem readScope_along (hscopes : ScopesMirror ρ l l') (hsymbols : SymbolsMirror ρ l l')
    (hv : Renames ρ .scope v v') :
    Along none (fun n n' => ScopesMirror ρ n n' ∧ SymbolsMirror ρ n n') (l.readScope v path)
      (l'.readScope v' path') := by
  let S := sideBySide hsymbols.cover
  have hl : l.Beside l' S := beside_sideBySide hscopes.cover hsymbols.cover
  have hpath : S.Facing path path' := trivial
  refine (object_along hpath (.some hv)).bind fun record record' hrecord => ?_
  refine (string_along hpath .scopeId (hrecord.get? "id" rfl rfl)).bind fun key key' hkey => ?_
  obtain rfl : key' = ρ.scope key := hkey
  have hcontains : l'.scopes.contains (ρ.scope key) = l.scopes.contains key := by
    rw [OrderedMap.contains, OrderedMap.contains, hscopes.get?, Option.isSome_map]
  rw [hcontains]
  split
  · exact along_error _ _
  · refine (word_along hpath (hrecord.get? "kind" rfl rfl)).bind fun kind kind' hkind => ?_
    subst hkind
    refine (idOr_along hpath .scopeId (hrecord.get? "parent" rfl rfl) fun _ =>
      ρ.scope_global.symm).bind fun parentId parentId' hparentId => ?_
    subst hparentId
    refine (hl.scope (S.member hpath "parent") parentId).bind
      fun parent parent' hparent => ?_
    subst hparent
    refine along_pure ⟨⟨fun other => ?_, ?_⟩, hsymbols⟩
    · show (OrderedMap.insert _ _ _).get? _ = ((OrderedMap.insert _ _ _).get? _).map _
      rw [OrderedMap.get?_insert, OrderedMap.get?_insert, hscopes.get?, hscopes.made]
      by_cases hother : key = other
      · rw [if_pos hother, if_pos (congrArg ρ.scope hother)]
        rfl
      · rw [if_neg hother, if_neg fun h => hother (ρ.scope_injective h)]
    · show (_ ++ [_]).length = (_ ++ [_]).length
      rw [List.length_append, List.length_append, hscopes.made]
      rfl

/-- **A symbol is added** to what is loaded side by side, where it has an id of its own or keeps
its name as an id. -/
theorem readSymbol_along (hscopes : ScopesCover ρ l l') (hsymbols : SymbolsMirror ρ l l')
    (hid : v.get? "id" = none ∨ v.get? "id" = some .null → ∀ name, ρ.symbol name = name)
    (hv : Renames ρ .symbol v v') :
    Along none (fun n n' => ScopesCover ρ n n' ∧ SymbolsMirror ρ n n') (l.readSymbol v path)
      (l'.readSymbol v' path') := by
  let S := sideBySide hsymbols.cover
  have hl : l.Beside l' S := beside_sideBySide hscopes hsymbols.cover
  have hpath : S.Facing path path' := trivial
  have hobject : Along none (fun u u' => Renames ρ .symbol u u' ∧ u = v)
      (Field.object (some v) path) (Field.object (some v') path') := by
    rw [Field.object, Field.object, hv.eq, Json.isObject_rename]
    split
    · exact along_pure ⟨⟨rfl, hv.keepsOrder⟩, rfl⟩
    · exact along_error _ _
  refine hobject.bind ?_
  rintro record record' ⟨hrecord, rfl⟩
  refine (text_along hpath (hrecord.get? "name" rfl rfl)).bind fun name name' hname => ?_
  subst hname
  refine (idOr_along hpath .symbolId (hrecord.get? "id" rfl rfl) fun habsent =>
    (hid habsent _).symm).bind fun key key' hkey => ?_
  obtain rfl : key' = ρ.symbol key := hkey
  have hcontains : l'.symbols.contains (ρ.symbol key) = l.symbols.contains key := by
    have hrel := hsymbols key
    rw [OrderedMap.contains, OrderedMap.contains]
    generalize l.symbols.get? key = o at hrel ⊢
    generalize l'.symbols.get? (ρ.symbol key) = o' at hrel ⊢
    cases hrel <;> rfl
  rw [hcontains]
  split
  · exact along_error _ _
  · refine (string_along hpath .scopeId (hrecord.get? "scope" rfl rfl)).bind
      fun scopeId scopeId' hscopeId => ?_
    subst hscopeId
    refine (hl.scope (S.member hpath "scope") scopeId).bind
      fun scope scope' hscope => ?_
    subst hscope
    refine (array_along hpath .plain (hrecord.get? "attrs" rfl rfl)).bind
      fun names names' hnames => ?_
    refine (words_along (S.member hpath "attrs") hnames).bind
      fun attrs attrs' hattrs => ?_
    obtain rfl : attrs = attrs' := hattrs.symm
    refine (object_along (S.member hpath "details")
      (hrecord.get? "details" rfl rfl)).bind fun details details' hdetails => ?_
    refine (readDetails_along hl (S.member hpath "details") hdetails).bind
      fun denoted denoted' hdenoted => ?_
    refine along_pure ⟨hscopes, fun other => ?_⟩
    show Option.Rel _ ((OrderedMap.insert _ _ _).get? _) ((OrderedMap.insert _ _ _).get? _)
    rw [OrderedMap.get?_insert, OrderedMap.get?_insert]
    by_cases hother : key = other
    · rw [if_pos hother, if_pos (congrArg ρ.symbol hother)]
      refine .some ?_
      rw [Symbol.outline_eq, Symbol.outline_eq]
      show Symbol.mk 0 name' ((scope.rename ρ.scope).rename id) _ _ = _
      rw [Scope.rename_id]
      exact congrArg (fun d => Symbol.mk 0 name' (scope.rename ρ.scope) d _) hdenoted
    · rw [if_neg hother, if_neg fun h => hother (ρ.symbol_injective h)]
      exact hsymbols other

theorem outline_eq_of_checkBeside {hsymbols : SymbolsCover ρ l l'} {c c' : Check}
    (h : CheckBeside (sideBySide hsymbols) c c') : c'.outline id = c.outline ρ.scope := by
  obtain ⟨hname, hscope, hexpr, hat⟩ := h
  rw [Check.outline, Check.outline, hname, hscope, Scope.rename_id, hat]
  exact congrArg (Check.mk c.name (c.scope.rename ρ.scope) · c.at?) hexpr

/-- **Checks that are read side by side** give the same reports. -/
theorem run_readChecks_along (hscopes : ScopesCover ρ l l') (hsymbols : SymbolsCover ρ l l')
    (file : Option String) (table : IntrinsicTable)
    (h : Option.Rel (Renames ρ .checks) (v.get? "checks") (v'.get? "checks")) :
    Along none (fun cs cs' => ∀ selection,
        cs'.map (·.run table selection) = cs.map (·.run table selection))
      (l.readChecks file v) (l'.readChecks file v') := by
  have hread := readChecks_along (beside_sideBySide hscopes hsymbols) file h trivial
  refine hread.mono fun cs cs' hcs selection =>
    Read.map_eq_of_forall₂ (hcs.imp fun c c' hc => ?_)
  calc c'.run table selection
      = (c'.outline id).run table selection :=
        (Check.run_outline Function.injective_id c' table selection).symm
    _ = (c.outline ρ.scope).run table selection := by rw [outline_eq_of_checkBeside hc]
    _ = c.run table selection := Check.run_outline ρ.scope_injective c table selection

/-- **A section is read side by side,** item by item. -/
theorem readFrom_along {E : Option (Failure → Failure)} {P : Loaded → Loaded → Prop}
    {R : Json → Json → Prop} (read : Loaded → Json → Path → Read Loaded)
    (hstep : ∀ {l l' item item' path path'}, P l l' → R item item' →
      Along E P (read l item path) (read l' item' path'))
    {items items' : List Json} (h : List.Forall₂ R items items') (index : Nat) (hl : P l l') :
    Along E P (readFrom path read index l items) (readFrom path' read index l' items') := by
  induction h generalizing index l l' with
  | nil => exact along_pure hl
  | cons hitem _ ih => exact (hstep hl hitem).bind fun n n' hn => ih (index + 1) hn

end Loaded
end FortranExpr
