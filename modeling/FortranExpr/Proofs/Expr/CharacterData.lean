/-
# Character data read back

Data is read from its opening apostrophe on.  Two apostrophes stand for one of the data, and one
that is followed by another character, or by nothing, closes it.  So behind the opening one a run
of apostrophes is read two by two, and closes the data exactly when its length is odd.

| text | data | what is left |
| --- | --- | --- |
| `'it''s', x` | `it's` | `, x` |
| `''''` | `'` | |
| `''` | | |
| `'it''s` | never closed | |

Reading gives some data and a rest exactly when the text is the quoted data and then the rest, and
the rest does not begin with an apostrophe (`Quoted.read?_eq_some_iff`).  An apostrophe there would
go on with the data: `'a'` and `'b'` behind it are the data `a'b`.

Data is printed in this way as static data, as a scalar literal, and as each of the values of an
array literal, where a comma or a bracket follows it (`Constant.itemsText`).
-/

import FortranExpr.Proofs.Expr.Literal

namespace FortranExpr
namespace Quoted

/-! ### The reader -/

/-- Reads data up to the apostrophe that closes it, and gives what is left of the text too. -/
def readBody? : List Char → Option (List Char × List Char)
  | '\'' :: '\'' :: text => (readBody? text).map fun (data, rest) => ('\'' :: data, rest)
  | '\'' :: text => some ([], text)
  | c :: text => (readBody? text).map fun (data, rest) => (c :: data, rest)
  | [] => none

/-- Reads the quoted data that a text begins with, and gives what is left of the text too. -/
def read? : List Char → Option (List Char × List Char)
  | '\'' :: text => readBody? text
  | _ => none

/-- Puts one apostrophe where there are two, from left to right. -/
def halve : List Char → List Char
  | '\'' :: '\'' :: text => '\'' :: halve text
  | c :: text => c :: halve text
  | [] => []

variable {data data' text rest rest' : List Char}

theorem halve_double (data : List Char) : halve (double data) = data := by
  induction data with
  | nil => rfl
  | cons c data ih =>
    rw [double]
    split
    · rename_i hc
      rw [halve, ih, hc]
    · rename_i hc
      rw [halve, ih]
      exact fun _ h _ => hc h

/-- **Quoted data is read** up to its last apostrophe, and no further. -/
theorem readBody?_double_append (data : List Char) (hrest : rest.head? ≠ some '\'') :
    readBody? (double data ++ '\'' :: rest) = some (data, rest) := by
  induction data with
  | nil =>
    rw [double, List.nil_append, readBody?]
    rintro text rfl
    exact hrest rfl
  | cons c data ih =>
    rw [double]
    split
    · rename_i hc
      rw [List.cons_append, List.cons_append, readBody?, ih, hc]
      rfl
    · rename_i hc
      rw [List.cons_append, readBody?, ih]
      · rfl
      · exact fun _ h _ => hc h
      · exact hc

theorem exists_of_map_eq_some {c : Char} {read : Option (List Char × List Char)}
    (h : read.map (fun (data, rest) => (c :: data, rest)) = some (data, rest)) :
    ∃ later, data = c :: later ∧ read = some (later, rest) := by
  obtain ⟨⟨later, left⟩, hread, heq⟩ := Option.map_eq_some_iff.1 h
  cases heq
  exact ⟨later, rfl, hread⟩

/-- What is read is the data of the text in front of the rest, whole. -/
theorem eq_of_readBody?_eq_some (h : readBody? text = some (data, rest)) :
    text = double data ++ '\'' :: rest ∧ rest.head? ≠ some '\'' := by
  fun_induction readBody? text generalizing data with
  | case1 text ih =>
    obtain ⟨later, rfl, hread⟩ := exists_of_map_eq_some h
    obtain ⟨htext, hrest⟩ := ih hread
    rw [htext, double, if_pos rfl]
    exact ⟨rfl, hrest⟩
  | case2 text hnone =>
    cases h
    refine ⟨rfl, fun hhead => ?_⟩
    obtain ⟨tail, htail⟩ := List.head?_eq_some_iff.1 hhead
    exact hnone tail htail
  | case3 c text _ hc ih =>
    obtain ⟨later, rfl, hread⟩ := exists_of_map_eq_some h
    obtain ⟨htext, hrest⟩ := ih hread
    rw [htext, double, if_neg hc]
    exact ⟨rfl, hrest⟩
  | case4 => cases h

/-- **Reading undoes quoting,** whatever follows that is no apostrophe, and reads nothing else. -/
theorem read?_eq_some_iff :
    read? text = some (data, rest) ↔ text = quote data ++ rest ∧ rest.head? ≠ some '\'' := by
  have hquote : quote data ++ rest = '\'' :: (double data ++ '\'' :: rest) := by
    rw [quote, List.append_assoc, List.cons_append, List.singleton_append]
  rw [hquote]
  constructor
  · intro h
    unfold read? at h
    split at h
    · obtain ⟨htext, hrest⟩ := eq_of_readBody?_eq_some h
      exact ⟨congrArg _ htext, hrest⟩
    · cases h
  · rintro ⟨rfl, hrest⟩
    exact readBody?_double_append data hrest

/-- **Quoted data is self-delimiting.** -/
theorem quote_append_inj (hrest : rest.head? ≠ some '\'') (hrest' : rest'.head? ≠ some '\'')
    (h : quote data ++ rest = quote data' ++ rest') : data = data' ∧ rest = rest' := by
  have hread : read? (quote data ++ rest) = some (data, rest) :=
    read?_eq_some_iff.2 ⟨rfl, hrest⟩
  have hread' := read?_eq_some_iff.2 ⟨h, hrest'⟩
  exact Prod.mk.inj (Option.some.inj (hread.symm.trans hread'))

-- where an apostrophe follows, the data may go on
example : quote "a".toList ++ quote "b".toList = quote "a'b".toList := by decide

end Quoted

theorem toList_quoted (data : String) : (quoted data).toList = Quoted.quote data.toList :=
  String.toList_ofList

theorem quoted_append_inj {data data' rest rest' : String} (hrest : rest.toList.head? ≠ some '\'')
    (hrest' : rest'.toList.head? ≠ some '\'') (h : quoted data ++ rest = quoted data' ++ rest') :
    data = data' ∧ rest = rest' := by
  have hchars := congrArg String.toList h
  rw [String.toList_append, String.toList_append, toList_quoted, toList_quoted] at hchars
  obtain ⟨hdata, hleft⟩ := Quoted.quote_append_inj hrest hrest' hchars
  exact ⟨String.toList_injective hdata, String.toList_injective hleft⟩

/-- The apostrophes at both ends, and what stands between them. -/
theorem quoted_eq (data : String) :
    quoted data = "'" ++ String.ofList (Quoted.double data.toList) ++ "'" := by
  have hinner : (String.ofList (Quoted.double data.toList)).toList = Quoted.double data.toList :=
    String.toList_ofList
  refine String.toList_injective ?_
  rw [toList_quoted, String.toList_append, String.toList_append, hinner]
  rfl

/-! ### Array literals -/

namespace Constant

/-- The text of an array literal from some of its values on, where the values are character data;
`before` stands in front of the first of them. -/
def itemsText (rest before : String) : List String → String
  | [] => "]" ++ rest
  | data :: more => before ++ (quoted data ++ itemsText rest ", " more)

theorem joinList_quoted_append (rest : String) (items : List String) :
    joinList (items.map quoted) ++ ("]" ++ rest) = itemsText rest "" items := by
  cases items with
  | nil => rw [List.map_nil, joinList, String.intercalate_nil, String.empty_append, itemsText]
  | cons data more =>
    rw [itemsText, String.empty_append]
    induction more generalizing data with
    | nil => rw [List.map_singleton, joinList, String.intercalate_singleton, itemsText]
    | cons next more ih =>
      have hjoin : joinList ((data :: next :: more).map quoted) =
          quoted data ++ ", " ++ joinList ((next :: more).map quoted) :=
        String.intercalate_cons_cons
      rw [hjoin, String.append_assoc, ih, itemsText, String.append_assoc]

variable {rest rest' before : String}

theorem head?_itemsText_nil (rest before : String) :
    (itemsText rest before []).toList.head? = some ']' := by
  rw [itemsText, String.toList_append]
  rfl

/-- A value is told from the end of the literal. -/
theorem head?_itemsText_cons_ne (hbefore : before = "" ∨ before = ", ") (rest data : String)
    (more : List String) : (itemsText rest before (data :: more)).toList.head? ≠ some ']' := by
  rw [itemsText, String.toList_append, String.toList_append, toList_quoted]
  rcases hbefore with rfl | rfl
  · exact ne_of_beq_false rfl
  · exact ne_of_beq_false rfl

/-- No apostrophe follows a value. -/
theorem head?_itemsText_ne (rest : String) (more : List String) :
    (itemsText rest ", " more).toList.head? ≠ some '\'' := by
  cases more with
  | nil =>
    rw [head?_itemsText_nil]
    decide
  | cons data more =>
    rw [itemsText, String.toList_append]
    exact ne_of_beq_false rfl

/-- Values are told from the text up to the end of the literal, whatever is behind it. -/
theorem itemsText_inj {items items' : List String} (hbefore : before = "" ∨ before = ", ")
    (h : itemsText rest before items = itemsText rest' before items') : items = items' := by
  -- by the values; each one ends where it has to, since a comma or a bracket follows it
  induction items generalizing before items' with
  | nil =>
    cases items' with
    | nil => rfl
    | cons data' more' =>
      have hhead := head?_itemsText_nil rest before
      rw [h] at hhead
      exact absurd hhead (head?_itemsText_cons_ne hbefore rest' data' more')
  | cons data more ih =>
    cases items' with
    | nil =>
      have hhead := head?_itemsText_nil rest' before
      rw [← h] at hhead
      exact absurd hhead (head?_itemsText_cons_ne hbefore rest data more)
    | cons data' more' =>
      rw [itemsText, itemsText, String.append_right_inj] at h
      obtain ⟨rfl, hmore⟩ :=
        quoted_append_inj (head?_itemsText_ne rest more) (head?_itemsText_ne rest' more') h
      rw [ih (.inr rfl) hmore]

/-- An array literal whose values are character data. -/
structure IsCharacterArray (c : Constant) : Prop where
  category : c.category = .character
  values : ∃ items : List String, c.values = items.map .characters
  shape : c.shape ≠ []

/-- The text of an array literal in front of its values. -/
def opening (c : Constant) : String := if c.shape.length = 1 then "[" else "reshape(["

theorem opening_eq_or (c : Constant) : c.opening = "[" ∨ c.opening = "reshape([" := by
  unfold opening
  split
  · exact .inl rfl
  · exact .inr rfl

/-- The first character tells what stands in front of the values. -/
theorem opening_eq_of_append_eq {c c' : Constant} {s s' : String}
    (h : c.opening ++ s = c'.opening ++ s') : c.opening = c'.opening := by
  have hhead := congrArg (fun text => text.toList.head?) h
  simp only [String.toList_append] at hhead
  rcases c.opening_eq_or with hc | hc <;> rcases c'.opening_eq_or with hc' | hc' <;>
    rw [hc, hc'] at hhead ⊢
  · exact absurd hhead (ne_of_beq_false rfl)
  · exact absurd hhead (ne_of_beq_false rfl)

theorem IsCharacterArray.exists_text {c : Constant} (h : c.IsCharacterArray) :
    ∃ items rest, c.values = items.map .characters ∧
      c.text = c.opening ++ itemsText rest "" items := by
  obtain ⟨items, hvalues⟩ := h.values
  have hitems : c.values.map (Value.literal c.category) = items.map quoted := by
    rw [h.category, hvalues, List.map_map]
    rfl
  rw [text, hitems, opening]
  cases hshape : c.shape with
  | nil => exact absurd hshape h.shape
  | cons extent more =>
    cases more with
    | nil =>
      refine ⟨items, "", hvalues, ?_⟩
      rw [← joinList_quoted_append, String.append_empty, String.append_assoc]
      rfl
    | cons next more =>
      refine ⟨items, ", [" ++ joinList ((extent :: next :: more).map Binary64.text) ++ "])",
        hvalues, ?_⟩
      have hclosed : "], [" = "]" ++ ", [" := rfl
      rw [← joinList_quoted_append, hclosed]
      simp only [String.append_assoc]
      rfl

/-- **Array literals of one text hold the same character data.** -/
theorem IsCharacterArray.values_eq {c c' : Constant} (h : c.IsCharacterArray)
    (h' : c'.IsCharacterArray) (htext : c.text = c'.text) : c.values = c'.values := by
  obtain ⟨items, rest, hvalues, hc⟩ := h.exists_text
  obtain ⟨items', rest', hvalues', hc'⟩ := h'.exists_text
  rw [hc, hc'] at htext
  rw [opening_eq_of_append_eq htext, String.append_right_inj] at htext
  rw [hvalues, hvalues', itemsText_inj (.inl rfl) htext]

end Constant

/-! ### Character data in expressions -/

/-- What is printed for character data: its text as a value of a literal, as a scalar literal, or
as static data. -/
inductive IsPrinted (data : String) : String → Prop
  | value : IsPrinted data (Value.literal .character (.characters data))
  | literal {c : Constant} : c.category = .character → c.scalar? = some (.characters data) →
      IsPrinted data (Expr.constant c).text
  | static (name : String) : IsPrinted data (Expr.staticData name data).text

namespace IsPrinted

variable {data printed : String}

theorem eq_quoted (h : IsPrinted data printed) : printed = quoted data := by
  cases h with
  | value => rfl
  | literal hcategory hscalar =>
    rw [Expr.text, Constant.text_of_scalar? hscalar, hcategory]
    rfl
  | static name => rw [Expr.text]

theorem read?_iff (h : IsPrinted data printed) (text rest : String) :
    Quoted.read? text.toList = some (data.toList, rest.toList) ↔
      text = printed ++ rest ∧ rest.toList.head? ≠ some '\'' := by
  rw [Quoted.read?_eq_some_iff, h.eq_quoted, ← toList_quoted, ← String.toList_append,
    String.toList_inj]

theorem append_eq_iff {data' printed' rest rest' : String} (h : IsPrinted data printed)
    (h' : IsPrinted data' printed') (hrest : rest.toList.head? ≠ some '\'')
    (hrest' : rest'.toList.head? ≠ some '\'') :
    printed ++ rest = printed' ++ rest' ↔ data = data' ∧ rest = rest' := by
  rw [h.eq_quoted, h'.eq_quoted]
  constructor
  · exact quoted_append_inj hrest hrest'
  · rintro ⟨rfl, rfl⟩
    rfl

theorem exists_inner (h : IsPrinted data printed) : ∃ inner : String,
    printed = "'" ++ inner ++ "'" ∧ String.ofList (Quoted.halve inner.toList) = data := by
  refine ⟨String.ofList (Quoted.double data.toList), ?_, ?_⟩
  · rw [h.eq_quoted, quoted_eq]
  · rw [String.toList_ofList, Quoted.halve_double, String.ofList_toList]

end IsPrinted

/-- **Character data is self-delimiting and reversible.**

Character data is printed the same way as a value of a literal, as a scalar literal and as static
data.  Reading from left to right, where two apostrophes stand for one and a single one closes the
data, finds the data in a text, and a rest behind it, exactly when the text is what is printed and
then the rest, and the rest does not begin with an apostrophe; so it never ends early.  Where two
such rests follow what is printed, the texts are the same exactly when the data and the rests are.
What is printed stands between two apostrophes, and what stands between them, with one apostrophe
for two, is the data.  So array literals of character data that have one text hold the same data. -/
theorem characterData_selfDelimiting :
    (∀ data printed, IsPrinted data printed → ∀ text rest : String,
      Quoted.read? text.toList = some (data.toList, rest.toList) ↔
        text = printed ++ rest ∧ rest.toList.head? ≠ some '\'') ∧
    (∀ data data' printed printed' rest rest' : String,
      IsPrinted data printed → IsPrinted data' printed' →
      rest.toList.head? ≠ some '\'' → rest'.toList.head? ≠ some '\'' →
      (printed ++ rest = printed' ++ rest' ↔ data = data' ∧ rest = rest')) ∧
    (∀ data printed, IsPrinted data printed → ∃ inner : String, printed = "'" ++ inner ++ "'" ∧
      String.ofList (Quoted.halve inner.toList) = data) ∧
    ∀ c c' : Constant, c.IsCharacterArray → c'.IsCharacterArray →
      (Expr.constant c : Expr Symbol).text = (Expr.constant c').text → c.values = c'.values := by
  refine ⟨fun data printed h => h.read?_iff, ?_, fun data printed h => h.exists_inner, ?_⟩
  · intro data data' printed printed' rest rest' h h' hrest hrest'
    exact h.append_eq_iff h' hrest hrest'
  · intro c c' h h' htext
    rw [Expr.text, Expr.text] at htext
    exact h.values_eq h' htext

/-- A scalar literal of data with apostrophes at both ends and side by side. -/
def apostrophes : Constant := ⟨.character, [.characters "'it''s'"], []⟩

/-- An array literal of data that could be taken for two values, with the given extent. -/
def commaInData (extent : Rat) : Constant :=
  ⟨.character, [.characters "', '", .characters "'"], [.finite extent]⟩

theorem characterData_selfDelimiting_apostrophes :
    (Expr.constant apostrophes : Expr Symbol).text = "'''it''''s'''" ∧
    Quoted.read? "'''it''''s''', 'x'".toList = some ("'it''s'".toList, ", 'x'".toList) ∧
    (Expr.constant apostrophes : Expr Symbol).text ++ ", 'x'" =
      (Expr.staticData "s" "'it''s'").text ++ ", 'x'" ∧
    String.ofList (Quoted.halve "''it''''s''".toList) = "'it''s'" ∧
    (commaInData 2).values = (commaInData 7).values := by
  obtain ⟨hread, hdelimited, hreversed, harrays⟩ := characterData_selfDelimiting
  have hliteral : IsPrinted "'it''s'" (Expr.constant apostrophes).text := .literal rfl rfl
  have hstatic : IsPrinted "'it''s'" (Expr.staticData "s" "'it''s'").text := .static "s"
  have htext : (Expr.constant apostrophes : Expr Symbol).text = "'''it''''s'''" :=
    hliteral.eq_quoted.trans (by decide)
  have hrest : ", 'x'".toList.head? ≠ some '\'' := by decide
  have harray (extent : Rat) : (commaInData extent).IsCharacterArray :=
    ⟨rfl, ⟨["', '", "'"], rfl⟩, List.cons_ne_nil _ _⟩
  refine ⟨htext, ?_, ?_, ?_, ?_⟩
  · refine (hread _ _ hliteral _ _).2 ⟨?_, hrest⟩
    rw [htext]
    decide
  · exact (hdelimited _ _ _ _ _ _ hliteral hstatic hrest hrest).2 ⟨rfl, rfl⟩
  · obtain ⟨inner, hinner, hdata⟩ := hreversed _ _ hliteral
    have houter : "'" ++ "''it''''s''" ++ "'" = "'" ++ inner ++ "'" :=
      Eq.trans (by decide) (htext.symm.trans hinner)
    rw [String.append_left_inj, String.append_right_inj] at houter
    rw [houter, hdata]
  · refine harrays _ _ (harray 2) (harray 7) ?_
    rw [Expr.text, Expr.text]
    rfl

end FortranExpr
