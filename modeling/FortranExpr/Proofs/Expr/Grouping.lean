/-
# Reading a formula back

The text of a formula is read from left to right, one character at a time.  The reader holds a
stack of what is open (`Grouping.Frame`) and is in one of three states:

| state | next |
| --- | --- |
| `expecting` | a word, an opening parenthesis or a sign in front of an operand |
| `complete g` | more of a word, `%`, a closing parenthesis, or the blank in front of a sign |
| `signing` | more of a sign, up to the blank behind it |

What is read is a `Grouping`: which words and signs there are, and which operands each sign has.
Parentheses leave no trace in it.  An operand that is itself an operation stands in parentheses,
so that at most one sign waits for its operand between two parentheses, and no precedence has to
be known.

Every formula is read as the grouping of what is left of it without parentheses
(`Expr.TextTells`), whatever is nested in it.  So formulas of one text have one grouping, and
formulas of one grouping agree.
-/

import FortranExpr.Proofs.Expr.Formula
import FortranExpr.Proofs.Expr.Parentheses

namespace FortranExpr

/-- Which operands belong to which sign. -/
inductive Grouping where
  | word (letters : List Char)
  | component (base : Grouping) (name : List Char)
  | converted (type : List Char) (operand : Grouping)
  | signed (sign : List Char) (operand : Grouping)
  | joined (sign : List Char) (left right : Grouping)
deriving DecidableEq

namespace Grouping

/-! ### The reader -/

/-- What is open: a sign that waits for its operand, with the operand on its left if there is
one, or a parenthesis, with the conversion in front of it if there is one. -/
inductive Frame where
  | sign (left : Option Grouping) (sign : List Char)
  | group (conversion : Option (List Char))

/-- Where the reader is. -/
inductive State where
  | expecting (frames : List Frame)
  | complete (g : Grouping) (frames : List Frame)
  | signing (left : Option Grouping) (sign : List Char) (frames : List Frame)

/-- One more character of the word that is read last. -/
def extend (c : Char) : Grouping → Option Grouping
  | word letters => some (word (letters ++ [c]))
  | component base name => some (component base (name ++ [c]))
  | _ => none

/-- Gives an operand to the signs that wait for it. -/
def settle : Grouping → List Frame → Grouping × List Frame
  | g, .sign none s :: frames => settle (signed s g) frames
  | g, .sign (some left) s :: frames => settle (joined s left g) frames
  | g, frames => (g, frames)

/-- Closes a parenthesis. -/
def close (g : Grouping) (frames : List Frame) : Option State :=
  match settle g frames with
  | (g, .group none :: frames) => some (.complete g frames)
  | (g, .group (some type) :: frames) => some (.complete (converted type g) frames)
  | _ => none

/-- Reads a mark where an operand is to come. -/
def openMark (frames : List Frame) : Char → Option State
  | '(' => some (.expecting (.group none :: frames))
  | '-' => some (.expecting (.sign none ['-'] :: frames))
  | '.' => some (.signing none ['.'] frames)
  | _ => none

/-- Reads a mark behind an operand. -/
def nextMark (g : Grouping) (frames : List Frame) : Char → Option State
  | '%' => some (.complete (component g []) frames)
  | ' ' => some (.signing (some g) [] frames)
  | ')' => close g frames
  | '(' =>
    match g with
    | word type => some (.expecting (.group (some type) :: frames))
    | _ => none
  | _ => none

/-- Reads one character. -/
def step : State → Char → Option State
  | .expecting frames, c =>
    if isWordChar c then some (.complete (word [c]) frames) else openMark frames c
  | .complete g frames, c =>
    if isWordChar c then (g.extend c).map fun g => .complete g frames else nextMark g frames c
  | .signing left sign frames, c =>
    if c = ' ' then some (.expecting (.sign left sign :: frames))
    else some (.signing left (sign ++ [c]) frames)

/-- The grouping at the end of a text, where nothing may be open. -/
def State.result? : State → Option Grouping
  | .complete g frames =>
    match settle g frames with
    | (g, []) => some g
    | _ => none
  | _ => none

/-- The grouping of a text. -/
def read? (text : String) : Option Grouping :=
  (text.toList.foldlM step (.expecting [])).bind State.result?

/-! ### Reading piece by piece -/

/-- The reader comes from one state to another by reading some characters. -/
def Reads (s : State) (text : List Char) (t : State) : Prop := text.foldlM step s = some t

theorem Reads.nil (s : State) : Reads s [] s := rfl

theorem Reads.cons {s t u : State} {c : Char} {text : List Char} (hc : step s c = some t)
    (h : Reads t text u) : Reads s (c :: text) u := by
  rw [Reads, List.foldlM_cons, hc]
  exact h

theorem Reads.one {s t : State} {c : Char} (hc : step s c = some t) : Reads s [c] t :=
  .cons hc (.nil t)

theorem Reads.append {s t u : State} {left right : List Char} (hl : Reads s left t)
    (hr : Reads t right u) : Reads s (left ++ right) u := by
  rw [Reads, List.foldlM_append, hl]
  exact hr

/-- The word that is read last goes on. -/
theorem reads_extend {f : List Char → Grouping} {letters rest : List Char}
    (hf : ∀ letters c, (f letters).extend c = some (f (letters ++ [c])))
    (h : ∀ c ∈ rest, isWordChar c = true) (frames : List Frame) :
    Reads (.complete (f letters) frames) rest (.complete (f (letters ++ rest)) frames) := by
  induction rest generalizing letters with
  | nil =>
    rw [List.append_nil]
    exact .nil _
  | cons c rest ih =>
    have hc : step (.complete (f letters) frames) c =
        some (.complete (f (letters ++ [c])) frames) := by
      rw [step, if_pos (h c List.mem_cons_self), hf]
      rfl
    have hrest : Reads (.complete (f (letters ++ [c])) frames) rest
        (.complete (f (letters ++ [c] ++ rest)) frames) :=
      ih fun d hd => h d (List.mem_cons_of_mem c hd)
    rw [List.append_assoc, List.singleton_append] at hrest
    exact .cons hc hrest

/-- A word is read as a word. -/
theorem reads_word {letters : List Char} (h : IsWord letters) (frames : List Frame) :
    Reads (.expecting frames) letters (.complete (word letters) frames) := by
  obtain ⟨hne, hletters⟩ := h
  cases letters with
  | nil => exact absurd rfl hne
  | cons c rest =>
    have hc : step (.expecting frames) c = some (.complete (word [c]) frames) := by
      rw [step, if_pos (hletters c List.mem_cons_self)]
    exact .cons hc (reads_extend (fun _ _ => rfl)
      (fun d hd => hletters d (List.mem_cons_of_mem c hd)) frames)

/-- A word behind `%` is read as a component. -/
theorem reads_component {name : List Char} (h : IsWord name) (base : Grouping)
    (frames : List Frame) :
    Reads (.complete base frames) ('%' :: name) (.complete (component base name) frames) :=
  have hname : Reads (.complete (component base []) frames) name
      (.complete (component base ([] ++ name)) frames) :=
    reads_extend (f := component base) (fun _ _ => rfl) h.2 frames
  .cons rfl hname

/-- A sign is read up to the blank behind it. -/
theorem reads_sign (left : Option Grouping) (sign : List Char) {rest : List Char}
    (h : ' ' ∉ rest) (frames : List Frame) :
    Reads (.signing left sign frames) (rest ++ [' '])
      (.expecting (.sign left (sign ++ rest) :: frames)) := by
  induction rest generalizing sign with
  | nil =>
    rw [List.append_nil]
    exact .one rfl
  | cons c rest ih =>
    have hc : step (.signing left sign frames) c = some (.signing left (sign ++ [c]) frames) := by
      rw [step, if_neg fun (hblank : c = ' ') => h (hblank ▸ List.mem_cons_self)]
    have hrest := ih (sign ++ [c]) fun hmem => h (List.mem_cons_of_mem c hmem)
    rw [List.append_assoc, List.singleton_append] at hrest
    exact .cons hc hrest

/-! ### Parentheses and operations -/

/-- The text is read as the grouping, except that a sign in front of it may be waiting for the
operand that is read last. -/
def ReadsBack (text : String) (g : Grouping) : Prop :=
  ∀ frames, ∃ last rest, Reads (.expecting frames) text.toList (.complete last rest) ∧
    settle last rest = settle g frames

/-- The text is read as the grouping, and no sign is waiting. -/
def ReadsBackAlone (text : String) (g : Grouping) : Prop :=
  ∀ frames, Reads (.expecting frames) text.toList (.complete g frames)

theorem ReadsBackAlone.readsBack {text : String} {g : Grouping} (h : ReadsBackAlone text g) :
    ReadsBack text g := fun frames => ⟨g, frames, h frames, rfl⟩

/-- What stands in parentheses stands alone. -/
theorem ReadsBack.reads_group {text : String} {g : Grouping} (h : ReadsBack text g)
    (conversion : Option (List Char)) (frames : List Frame) :
    Reads (.expecting (.group conversion :: frames)) (text.toList ++ [')'])
      (.complete (conversion.elim g (converted · g)) frames) := by
  obtain ⟨last, rest, hreads, hsettle⟩ := h (.group conversion :: frames)
  refine hreads.append (.one ?_)
  show close last rest = _
  rw [close, hsettle]
  cases conversion <;> rfl

theorem ReadsBack.parens {text : String} {g : Grouping} (h : ReadsBack text g) :
    ReadsBackAlone ("(" ++ text ++ ")") g := fun frames => by
  rw [String.toList_append, String.toList_append, List.append_assoc]
  exact .cons rfl (h.reads_group none frames)

theorem ReadsBack.converted {text type : String} {g : Grouping} (h : ReadsBack text g)
    (htype : IsWord type.toList) :
    ReadsBackAlone (type ++ "(" ++ text ++ ")") (.converted type.toList g) := fun frames => by
  rw [String.toList_append, String.toList_append, String.toList_append, List.append_assoc,
    List.append_assoc]
  exact (reads_word htype frames).append (.cons rfl (h.reads_group (some type.toList) frames))

theorem ReadsBackAlone.joined {left right sign : String} {l r : Grouping}
    (hl : ReadsBackAlone left l) (hr : ReadsBackAlone right r) (hsign : ' ' ∉ sign.toList) :
    ReadsBack (left ++ " " ++ sign ++ " " ++ right) (.joined sign.toList l r) := fun frames => by
  refine ⟨r, .sign (some l) sign.toList :: frames, ?_, rfl⟩
  have hmiddle := reads_sign (some l) [] hsign frames
  simp only [String.toList_append, List.append_assoc]
  refine (hl frames).append (.cons rfl ?_)
  rw [← List.append_assoc]
  exact hmiddle.append (hr _)

theorem ReadsBackAlone.negated {text : String} {g : Grouping} (h : ReadsBackAlone text g) :
    ReadsBack ("-" ++ text) (.signed "-".toList g) := fun frames => by
  rw [String.toList_append]
  exact ⟨g, .sign none ['-'] :: frames, .cons rfl (h _), rfl⟩

theorem ReadsBackAlone.inverted {text : String} {g : Grouping} (h : ReadsBackAlone text g) :
    ReadsBack (".not. " ++ text) (.signed ".not.".toList g) := fun frames => by
  have hblank : ' ' ∉ "not.".toList := by decide
  have hsign := reads_sign none ['.'] hblank frames
  rw [String.toList_append]
  exact ⟨g, .sign none ".not.".toList :: frames, .append (.cons rfl hsign) (h _), rfl⟩

end Grouping

/-! ### The texts of operators -/

theorem TypeCategory.isWord_text (category : TypeCategory) : IsWord category.text.toList := by
  have hne : category.text.toList ≠ [] := by cases category <;> decide
  have hall : category.text.toList.all isWordChar = true := by cases category <;> decide
  exact ⟨hne, List.all_eq_true.1 hall⟩

theorem BinaryOp.blank_notMem_text (op : BinaryOp) : ' ' ∉ op.text.toList := by
  cases op <;> decide

theorem RelationalOp.blank_notMem_text (op : RelationalOp) : ' ' ∉ op.text.toList := by
  cases op <;> decide

theorem TypeCategory.text_injective {k k' : TypeCategory}
    (h : k.text.toList = k'.text.toList) : k = k' := by
  revert h
  cases k <;> cases k' <;> decide

theorem BinaryOp.text_injective {op op' : BinaryOp} (h : op.text.toList = op'.text.toList) :
    op = op' := by
  revert h
  cases op <;> cases op' <;> decide

theorem RelationalOp.text_injective {op op' : RelationalOp}
    (h : op.text.toList = op'.text.toList) : op = op' := by
  revert h
  cases op <;> cases op' <;> decide

/-- No operator is written like a comparison. -/
theorem BinaryOp.text_ne_text (op : BinaryOp) (op' : RelationalOp) :
    op.text.toList ≠ op'.text.toList := by
  cases op <;> cases op' <;> decide

/-! ### The grouping of a formula -/

namespace Expr

/-- The words and signs of a formula without parentheses, and the operands of each sign. -/
inductive HasGrouping : Expr Symbol → Grouping → Prop
  | name {s : Symbol} {letters : List Char} : IsIdentifier s.name → s.name.toList = letters →
      HasGrouping (.entity (.symbol s)) (.word letters)
  | literal {values : List Value} {v : Value} {letters : List Char} : values.head? = some v →
      v.IsUnsigned → v.text.toList = letters →
      HasGrouping (.constant ⟨.integer, values, []⟩) (.word letters)
  | component {base : Expr Symbol} {c : Symbol} {g : Grouping} {letters : List Char} :
      HasGrouping base g → c.name.toList = letters →
      HasGrouping (.entity (.component base c)) (.component g letters)
  | negate {category : TypeCategory} {x : Expr Symbol} {g : Grouping} {sign : List Char} :
      HasGrouping x g → "-".toList = sign → HasGrouping (.unary .negate category x) (.signed sign g)
  | not {category : TypeCategory} {x : Expr Symbol} {g : Grouping} {sign : List Char} :
      HasGrouping x g → ".not.".toList = sign → HasGrouping (.unary .not category x) (.signed sign g)
  | convert {category : TypeCategory} {x : Expr Symbol} {g : Grouping} {type : List Char} :
      HasGrouping x g → category.text.toList = type →
      HasGrouping (.unary .convert category x) (.converted type g)
  | binary {op : BinaryOp} {category : TypeCategory} {x y : Expr Symbol} {l r : Grouping}
      {sign : List Char} : HasGrouping x l → HasGrouping y r → op.text.toList = sign →
      HasGrouping (.binary op category x y) (.joined sign l r)
  | relational {op : RelationalOp} {x y : Expr Symbol} {l r : Grouping} {sign : List Char} :
      HasGrouping x l → HasGrouping y r → op.text.toList = sign →
      HasGrouping (.relational op x y) (.joined sign l r)

open Grouping

variable {e e' : Expr Symbol}

/-- **What the text tells:** the grouping that is left without parentheses is read from the text,
by itself and as an operand. -/
def TextTells (e : Expr Symbol) (g : Grouping) : Prop :=
  e.dropParens.HasGrouping g ∧ ReadsBack e.text g ∧ ReadsBackAlone (e.asOperand e.text) g

theorem textTells_of_alone {g : Grouping} (hoperation : e.isOperation = false)
    (hgroup : e.dropParens.HasGrouping g) (h : ReadsBackAlone e.text g) : e.TextTells g := by
  refine ⟨hgroup, h.readsBack, ?_⟩
  rwa [asOperand, if_neg (by rw [hoperation]; exact Bool.false_ne_true)]

theorem textTells_of_operation {g : Grouping} (hoperation : e.isOperation = true)
    (hgroup : e.dropParens.HasGrouping g) (h : ReadsBack e.text g) : e.TextTells g := by
  refine ⟨hgroup, h, ?_⟩
  rw [asOperand, if_pos hoperation]
  exact h.parens

/-- **Every formula is read back,** by itself and as an operand. -/
theorem IsFormula.exists_textTells (h : e.IsFormula) : ∃ g, e.TextTells g := by
  -- an operation is read as a whole, and as an operand it is in parentheses
  induction h with
  | @name s hname =>
    refine ⟨.word s.name.toList, textTells_of_alone rfl ?_ fun frames => ?_⟩
    · rw [dropParens, DataRef.dropParens]
      exact .name hname rfl
    · rw [text, DataRef.text]
      exact reads_word hname.isWord frames
  | @component base c _ hname ih =>
    obtain ⟨g, hgroup, -, halone⟩ := ih
    refine ⟨.component g c.name.toList, textTells_of_alone rfl ?_ fun frames => ?_⟩
    · rw [dropParens, DataRef.dropParens]
      exact .component hgroup rfl
    · rw [text, DataRef.text, String.toList_append, String.toList_append, List.append_assoc]
      exact (halone frames).append (reads_component hname.isWord g frames)
  | @literal values v hv hunsigned =>
    have hoperation : (constant ⟨.integer, values, []⟩ : Expr Symbol).isOperation = false := by
      rw [isOperation, hv, Option.any_some, hunsigned.isNegative_eq_false, Bool.and_false]
    refine ⟨.word v.text.toList, textTells_of_alone hoperation ?_ fun frames => ?_⟩
    · rw [dropParens]
      exact .literal hv hunsigned rfl
    · rw [text, Constant.text_integer hv]
      exact reads_word hunsigned.isWord_text frames
  | unary op category _ ih =>
    obtain ⟨g, hgroup, hreads, halone⟩ := ih
    cases op with
    | negate =>
      refine ⟨.signed "-".toList g, textTells_of_operation rfl ?_ ?_⟩
      · rw [dropParens]
        exact .negate hgroup rfl
      · rw [text]
        exact halone.negated
    | not =>
      refine ⟨.signed ".not.".toList g, textTells_of_operation rfl ?_ ?_⟩
      · rw [dropParens]
        exact .not hgroup rfl
      · rw [text]
        exact halone.inverted
    | convert =>
      refine ⟨.converted category.text.toList g, textTells_of_alone rfl ?_ ?_⟩
      · rw [dropParens]
        exact .convert hgroup rfl
      · rw [text]
        exact hreads.converted category.isWord_text
  | binary op category _ _ ihl ihr =>
    obtain ⟨l, hlgroup, -, hl⟩ := ihl
    obtain ⟨r, hrgroup, -, hr⟩ := ihr
    refine ⟨.joined op.text.toList l r, textTells_of_operation rfl ?_ ?_⟩
    · rw [dropParens]
      exact .binary hlgroup hrgroup rfl
    · rw [text]
      exact hl.joined hr op.blank_notMem_text
  | relational op _ _ ihl ihr =>
    obtain ⟨l, hlgroup, -, hl⟩ := ihl
    obtain ⟨r, hrgroup, -, hr⟩ := ihr
    refine ⟨.joined op.text.toList l r, textTells_of_operation rfl ?_ ?_⟩
    · rw [dropParens]
      exact .relational hlgroup hrgroup rfl
    · rw [text]
      exact hl.joined hr op.blank_notMem_text
  | parens _ ih =>
    obtain ⟨g, hgroup, hreads, -⟩ := ih
    refine ⟨g, textTells_of_alone rfl ?_ ?_⟩
    · rwa [dropParens]
    · rw [text]
      exact hreads.parens

/-- The reader finds the grouping that the text tells. -/
theorem TextTells.read?_eq {g : Grouping} (h : e.TextTells g) : read? e.text = some g := by
  obtain ⟨last, rest, hreads, hsettle⟩ := h.2.1 []
  have hnone : settle g [] = (g, []) := by rw [settle] <;> exact nofun
  rw [Reads] at hreads
  rw [read?, hreads, Option.bind_some, State.result?, hsettle, hnone]

/-! ### Formulas of one grouping -/

/-- **Formulas of one grouping agree.** -/
theorem HasGrouping.agrees {d d' : Expr Symbol} {g : Grouping} (h : d.HasGrouping g)
    (h' : d'.HasGrouping g) : d.Agrees Value.SameUpToRounding d' := by
  induction h generalizing d' with
  | name hname hletters =>
    -- words are names and literals, and no name is a row of digits
    cases h' with
    | name _ hletters' => exact .name (String.toList_injective (hletters.trans hletters'.symm))
    | literal _ hunsigned hletters' =>
      exact absurd (hletters.trans hletters'.symm) (hname.ne_text hunsigned)
  | literal hv hunsigned hletters =>
    cases h' with
    | name hname hletters' =>
      exact absurd (hletters'.trans hletters.symm) (hname.ne_text hunsigned)
    | literal hv' hunsigned' hletters' =>
      exact .literal hv hv' (hunsigned.sameUpToRounding hunsigned'
        (String.toList_injective (hletters.trans hletters'.symm)))
  | component _ hletters ih =>
    cases h' with
    | component hbase' hletters' =>
      exact .component (ih hbase') (String.toList_injective (hletters.trans hletters'.symm))
  | negate _ hsign ih =>
    cases h' with
    | negate hx' => exact .unary nofun (ih hx')
    | not _ hsign' => exact absurd (hsign.trans hsign'.symm) (by decide)
  | not _ hsign ih =>
    cases h' with
    | negate _ hsign' => exact absurd (hsign.trans hsign'.symm) (by decide)
    | not hx' => exact .unary nofun (ih hx')
  | convert _ htype ih =>
    cases h' with
    | convert hx' htype' =>
      exact .unary (fun _ => TypeCategory.text_injective (htype.trans htype'.symm)) (ih hx')
  | @binary op _ _ _ _ _ _ _ _ hsign ihl ihr =>
    cases h' with
    | binary hx' hy' hsign' =>
      obtain rfl := BinaryOp.text_injective (hsign.trans hsign'.symm)
      exact .binary (ihl hx') (ihr hy')
    | relational _ _ hsign' => exact absurd (hsign.trans hsign'.symm) (op.text_ne_text _)
  | relational _ _ hsign ihl ihr =>
    cases h' with
    | @binary op _ _ _ _ _ _ _ _ hsign' =>
      exact absurd (hsign'.trans hsign.symm) (op.text_ne_text _)
    | relational hx' hy' hsign' =>
      obtain rfl := RelationalOp.text_injective (hsign.trans hsign'.symm)
      exact .relational (ihl hx') (ihr hy')

/-- **Formulas of one text agree** without their parentheses: they have the same operations at
the same places, over the same names and over literals of the same value, except that a number
above `2 ^ 53` may stand for an integer that is written like it and rounds to it.  So
parentheses around operands never change what belongs together. -/
theorem IsFormula.agrees_of_text_eq (h : e.IsFormula) (h' : e'.IsFormula)
    (htext : e.text = e'.text) : e.dropParens.Agrees Value.SameUpToRounding e'.dropParens := by
  obtain ⟨g, hg⟩ := h.exists_textTells
  obtain ⟨g', hg'⟩ := h'.exists_textTells
  have hread := hg.read?_eq
  rw [htext, hg'.read?_eq] at hread
  obtain rfl := Option.some.inj hread
  exact hg.1.agrees hg'.1

/-- The number `2 ^ 60`, which is 1152921504606846976. -/
def twoPowSixty : Expr Symbol := .constant ⟨.integer, [.number (.finite (2 ^ 60 : Nat))], []⟩

/-- The integer that is written like `2 ^ 60`. -/
def roundedTwoPowSixty : Expr Symbol := .constant ⟨.integer, [.integer 1152921504606847000], []⟩

/-- The opposite of `x`. -/
def oppositeX : Expr Symbol :=
  .unary .negate .integer
    (.entity (.symbol ⟨0, "x", .global, .object ⟨0, 0, .explicit, false, none, none⟩, []⟩))

/-- A sum of two is written `(-x) + 1152921504606847000` with and without parentheses around its
first operand, and with either of two values for the second. -/
theorem agrees_of_text_eq_sum :
    (binary .add .integer oppositeX twoPowSixty).IsFormula ∧
      (binary .add .real (.parens oppositeX) roundedTwoPowSixty).IsFormula ∧
      (binary .add .integer oppositeX twoPowSixty).text =
        (binary .add .real (.parens oppositeX) roundedTwoPowSixty).text ∧
      (binary .add .integer oppositeX twoPowSixty).dropParens.Agrees Value.SameUpToRounding
        (binary .add .real (.parens oppositeX) roundedTwoPowSixty).dropParens := by
  have hx : oppositeX.IsFormula := .unary _ _ (.name ⟨'x', [], rfl, by decide, nofun⟩)
  have h : (binary .add .integer oppositeX twoPowSixty).IsFormula :=
    .binary _ _ hx (.literal rfl (.number (by decide) (by decide +kernel)))
  have h' : (binary .add .real (.parens oppositeX) roundedTwoPowSixty).IsFormula :=
    .binary _ _ (.parens hx) (.literal rfl (.integer 1152921504606847000))
  have htext : (binary .add .integer oppositeX twoPowSixty).text =
      (binary .add .real (.parens oppositeX) roundedTwoPowSixty).text := by
    decide +kernel
  exact ⟨h, h', htext, h.agrees_of_text_eq h' htext⟩

/-- A text does not tell a large number from an integer that rounds to it. -/
theorem text_twoPowSixty : twoPowSixty.IsFormula ∧ roundedTwoPowSixty.IsFormula ∧
    twoPowSixty.text = roundedTwoPowSixty.text ∧
    ¬twoPowSixty.dropParens.Agrees Value.SameNumber roundedTwoPowSixty.dropParens := by
  refine ⟨.literal rfl (.number (by decide) (by decide +kernel)),
    .literal rfl (.integer 1152921504606847000), by decide +kernel, ?_⟩
  rw [twoPowSixty, roundedTwoPowSixty, dropParens, dropParens]
  intro hagrees
  cases hagrees with
  | literal hv hw hsame =>
    obtain rfl := Option.some.inj hv
    obtain rfl := Option.some.inj hw
    exact absurd hsame.toInt?_eq (by decide +kernel)

end Expr

end FortranExpr
