/-
# Color changes nothing but escape sequences

Reports and diagnostics are written with color or without.

| written | by default |
| --- | --- |
| a report, or reports | without color |
| a diagnostic, or the diagnostics of a collector | with color |

An escape sequence is `ESC [`, digits and `m`.  `uncolored` deletes all of them from a text.  What
is written with color and without it is the same piece for piece, escape sequences apart
(`Colors`), as long as no string that is written holds an escape character of its own; the numbers
of a place never do (`isPlain_text`).
-/

import FortranExpr.Proofs.Report
import Mathlib.Data.List.Forall2

namespace FortranExpr

/-! ### Escape sequences -/

/-- The escape character. -/
def escape : Char := '\x1b'

/-- The text behind the escape sequence that it begins with. -/
def afterSequence? : List Char → Option (List Char)
  | c :: '[' :: digit :: rest =>
    if c = escape ∧ digit.isDigit = true then
      match rest.dropWhile Char.isDigit with
      | 'm' :: later => some later
      | _ => none
    else none
  | _ => none

/-- What comes after a sequence is shorter, so the removal comes to an end. -/
theorem length_lt_of_afterSequence? {text later : List Char}
    (h : afterSequence? text = some later) : later.length < text.length := by
  unfold afterSequence? at h
  split at h
  · rename_i c digit rest
    split at h
    · split at h
      · rename_i hlater
        obtain rfl := Option.some.inj h
        have hle := (List.dropWhile_suffix Char.isDigit (l := rest)).length_le
        rw [hlater, List.length_cons] at hle
        simp only [List.length_cons]
        omega
      · cases h
    · cases h
  · cases h

/-- The text without its escape sequences, which are deleted from left to right. -/
def withoutSequences : List Char → List Char
  | [] => []
  | c :: rest =>
    match hsequence : afterSequence? (c :: rest) with
    | some later =>
      have := length_lt_of_afterSequence? hsequence
      withoutSequences later
    | none => c :: withoutSequences rest
termination_by text => text.length
decreasing_by
  · exact this
  · exact Nat.lt_succ_self _

/-- A sequence at the start is dropped. -/
theorem withoutSequences_of_eq_some {c : Char} {rest later : List Char}
    (h : afterSequence? (c :: rest) = some later) :
    withoutSequences (c :: rest) = withoutSequences later := by
  rw [withoutSequences]
  split
  · rename_i h'
    exact congrArg withoutSequences (Option.some.inj (h'.symm.trans h))
  · rename_i h'
    cases h'.symm.trans h

/-- A character at the start of no sequence is kept. -/
theorem withoutSequences_of_eq_none {c : Char} {rest : List Char}
    (h : afterSequence? (c :: rest) = none) :
    withoutSequences (c :: rest) = c :: withoutSequences rest := by
  rw [withoutSequences]
  split
  · rename_i h'
    cases h'.symm.trans h
  · rfl

/-- The text without its escape sequences. -/
def uncolored (text : String) : String := String.ofList (withoutSequences text.toList)

/-- The text holds no escape character. -/
def IsPlain (text : String) : Prop := escape ∉ text.toList

instance (text : String) : Decidable (IsPlain text) :=
  inferInstanceAs (Decidable (escape ∉ text.toList))

/-! ### Texts side by side -/

/-- Both texts are the same but for escape sequences in the first one. -/
inductive Colors : List Char → List Char → Prop
  | nil : Colors [] []
  | char {c : Char} {l l' : List Char} (h : c ≠ escape) (rest : Colors l l') :
      Colors (c :: l) (c :: l')
  | sequence {digit : Char} {digits l l' : List Char} (hdigit : digit.isDigit = true)
      (hdigits : ∀ d ∈ digits, d.isDigit = true) (rest : Colors l l') :
      Colors (escape :: '[' :: digit :: (digits ++ 'm' :: l)) l'

variable {l l' m m' : List Char}

/-- Only the escape character begins a sequence. -/
theorem afterSequence?_of_ne {c : Char} (h : c ≠ escape) (l : List Char) :
    afterSequence? (c :: l) = none := by
  unfold afterSequence?
  split
  · rename_i heq
    obtain rfl := (List.cons.inj heq).1
    exact if_neg fun hc => h hc.1
  · rfl

/-- A sequence of digits is dropped as a whole. -/
theorem afterSequence?_sequence {digit : Char} {digits : List Char}
    (hdigit : digit.isDigit = true) (hdigits : ∀ d ∈ digits, d.isDigit = true) (l : List Char) :
    afterSequence? (escape :: '[' :: digit :: (digits ++ 'm' :: l)) = some l := by
  have hrest : (digits ++ 'm' :: l).dropWhile Char.isDigit = 'm' :: l := by
    rw [List.dropWhile_append_of_pos hdigits]
    rfl
  rw [afterSequence?, if_pos ⟨rfl, hdigit⟩, hrest]
  rfl

/-- **Deleting the escape sequences** of the first text leaves the second one. -/
theorem Colors.withoutSequences_eq (h : Colors l l') : withoutSequences l = l' := by
  induction h with
  | nil => exact withoutSequences.eq_1
  | char h rest ih => rw [withoutSequences_of_eq_none (afterSequence?_of_ne h _), ih]
  | sequence hdigit hdigits rest ih =>
    rw [withoutSequences_of_eq_some (afterSequence?_sequence hdigit hdigits _), ih]

/-- The second text has no escape character. -/
theorem Colors.escape_notMem (h : Colors l l') : escape ∉ l' := by
  induction h with
  | nil => exact List.not_mem_nil
  | char h rest ih =>
    rw [List.mem_cons, not_or]
    exact ⟨Ne.symm h, ih⟩
  | sequence hdigit hdigits rest ih => exact ih

/-- Coloring goes piece by piece. -/
theorem Colors.append (h : Colors l l') (hm : Colors m m') : Colors (l ++ m) (l' ++ m') := by
  induction h with
  | nil => exact hm
  | char h rest ih => exact .char h ih
  | @sequence digit digits l l' hdigit hdigits rest ih =>
    have hassoc : escape :: '[' :: digit :: (digits ++ 'm' :: l) ++ m =
        escape :: '[' :: digit :: (digits ++ 'm' :: (l ++ m)) := by simp
    rw [hassoc]
    exact .sequence hdigit hdigits ih

/-- A text without escapes is a coloring of itself. -/
theorem colors_self (h : escape ∉ l) : Colors l l := by
  induction l with
  | nil => exact .nil
  | cons c l ih =>
    rw [List.mem_cons, not_or] at h
    exact .char (Ne.symm h.1) (ih h.2)

/-- The second string is the first one without color. -/
def IsColored (colored plain : String) : Prop := Colors colored.toList plain.toList

namespace IsColored

variable {s s' t t' : String}

/-- Plain text is colored as it is. -/
theorem self (h : IsPlain s) : IsColored s s := colors_self h

/-- Taking the color away gives the plain text back. -/
theorem uncolored_eq (h : IsColored s s') : uncolored s = s' := by
  rw [uncolored, Colors.withoutSequences_eq h, String.ofList_toList]

/-- What is colored is plain. -/
theorem isPlain (h : IsColored s s') : IsPlain s' := Colors.escape_notMem h

/-- Coloring goes string by string. -/
theorem append (h : IsColored s s') (ht : IsColored t t') : IsColored (s ++ t) (s' ++ t') := by
  rw [IsColored, String.toList_append, String.toList_append]
  exact Colors.append h ht

/-- Colored lines are put together with a plain separator. -/
theorem intercalate {separator : String} (hseparator : IsPlain separator)
    {lines lines' : List String} (h : List.Forall₂ IsColored lines lines') :
    IsColored (separator.intercalate lines) (separator.intercalate lines') := by
  induction h with
  | nil => exact self (by rw [String.intercalate_nil]; decide)
  | cons hline hrest ih =>
    cases hrest with
    | nil =>
      rw [String.intercalate_singleton, String.intercalate_singleton]
      exact hline
    | cons =>
      rw [String.intercalate_cons_cons, String.intercalate_cons_cons]
      exact (hline.append (self hseparator)).append ih

/-- Two ways to write items that color each of them color the list. -/
theorem map {α : Type} {list : List α} {write write' : α → String}
    (h : ∀ a ∈ list, IsColored (write a) (write' a)) :
    List.Forall₂ IsColored (list.map write) (list.map write') :=
  List.forall₂_map_left_iff.2 (List.forall₂_map_right_iff.2 (List.forall₂_same.2 h))

/-- What selects a rendition is an escape sequence, or nothing. -/
theorem rendition {digits : String} (hne : digits.toList ≠ [])
    (hdigits : digits.toList.all Char.isDigit = true) :
    IsColored (rendition true digits) (rendition false digits) := by
  obtain ⟨digit, rest, hcons⟩ := List.exists_cons_of_ne_nil hne
  rw [hcons, List.all_eq_true, List.forall_mem_cons] at hdigits
  have htext : (FortranExpr.rendition true digits).toList =
      escape :: '[' :: digit :: (rest ++ 'm' :: []) := by
    rw [FortranExpr.rendition, if_pos rfl, String.toList_append, String.toList_append, hcons]
    rfl
  rw [IsColored, htext]
  exact .sequence hdigits.1 hdigits.2 .nil

end IsColored

/-! ### Numbers -/

/-- The characters of numbers that are finite. -/
def isNumeric (c : Char) : Bool := c.isDigit || ['.', '-', '+', 'e'].contains c

/-- Decimal digits are characters of a number. -/
theorem forall_isNumeric_digits {n : Nat} : ∀ c ∈ Nat.toDigits 10 n, isNumeric c = true := by
  intro c hc
  have hdigit : c.isDigit = true := Nat.isDigit_of_mem_toDigits (by decide) (by decide) hc
  rw [isNumeric, hdigit, Bool.true_or]

/-- The shortest digits of a double are characters of a number. -/
theorem forall_isNumeric_toDigits (d : Decimal) : ∀ c ∈ d.toDigits.1, isNumeric c = true := by
  intro c hc
  rw [Decimal.toDigits, List.mem_reverse] at hc
  exact forall_isNumeric_digits c (List.mem_reverse.1 ((List.dropWhile_sublist _).mem hc))

/-- Point, sign and exponent are characters of a number as well. -/
theorem forall_isNumeric_layoutDigits (range : PlainRange) (n : Int) {digits : List Char}
    (hdigits : ∀ c ∈ digits, isNumeric c = true) :
    ∀ c ∈ layoutDigits range digits n, isNumeric c = true := by
  have hzeros (k : Nat) : ∀ c ∈ List.replicate k '0', isNumeric c = true := fun c hc =>
    List.eq_of_mem_replicate hc ▸ rfl
  rw [layoutDigits]
  split
  · split
    · exact List.forall_mem_append.2
        ⟨List.forall_mem_cons.2 ⟨rfl, List.forall_mem_cons.2 ⟨rfl, hzeros _⟩⟩, hdigits⟩
    · have hwhole : ∀ c ∈ digits.take n.toNat ++ List.replicate (n.toNat - digits.length) '0',
          isNumeric c = true :=
        List.forall_mem_append.2 ⟨fun c hc => hdigits c (List.mem_of_mem_take hc), hzeros _⟩
      have hfraction : ∀ c ∈ digits.drop n.toNat, isNumeric c = true := fun c hc =>
        hdigits c (List.mem_of_mem_drop hc)
      dsimp only
      split
      · exact hwhole
      · exact List.forall_mem_append.2 ⟨hwhole, List.forall_mem_cons.2 ⟨rfl, hfraction⟩⟩
  · have hexponent : ∀ c ∈ 'e' :: (if n - 1 < 0 then '-' else '+') ::
        Nat.toDigits 10 (n - 1).natAbs, isNumeric c = true := by
      refine List.forall_mem_cons.2 ⟨rfl, List.forall_mem_cons.2 ⟨?_, forall_isNumeric_digits⟩⟩
      split <;> rfl
    match digits, hdigits with
    | [], _ => exact hexponent
    | [d], hdigits =>
      exact List.forall_mem_cons.2 ⟨hdigits d List.mem_cons_self, hexponent⟩
    | d :: fraction :: more, hdigits =>
      rw [List.forall_mem_cons] at hdigits
      exact List.forall_mem_append.2 ⟨List.forall_mem_cons.2 ⟨hdigits.1,
        List.forall_mem_cons.2 ⟨rfl, hdigits.2⟩⟩, hexponent⟩

/-- The text of a number has no escapes. -/
theorem isPlain_ofList {text : List Char} (h : ∀ c ∈ text, isNumeric c = true) :
    IsPlain (String.ofList text) := by
  rw [IsPlain, String.toList_ofList]
  intro hescape
  exact absurd (h escape hescape) (by decide)

/-- **No number holds an escape character.** -/
theorem isPlain_text (x : Binary64) : IsPlain x.text := by
  unfold Binary64.text
  split
  · decide
  · split <;> decide
  · split
    · decide
    · rename_i q _
      have hdigits := forall_isNumeric_toDigits (Decimal.shortest (Binary64.magnitude q))
      have hlayout := forall_isNumeric_layoutDigits plainRange
        (Decimal.shortest (Binary64.magnitude q)).toDigits.2 hdigits
      refine isPlain_ofList ?_
      split
      · exact List.forall_mem_cons.2 ⟨rfl, hlayout⟩
      · exact hlayout

/-! ### Diagnostics -/

/-- Two plain strings make a plain one. -/
theorem IsPlain.append {s t : String} (hs : IsPlain s) (ht : IsPlain t) : IsPlain (s ++ t) := by
  rw [IsPlain, String.toList_append, List.mem_append, not_or]
  exact ⟨hs, ht⟩

/-- A string that is not left out is plain with the others. -/
theorem isPlain_of_nonempty? {text : Option String} (h : ∀ s ∈ text, IsPlain s) {s : String}
    (hs : nonempty? text = some s) : IsPlain s :=
  h s (Option.filter_eq_some_iff.1 hs).1

/-- A place is plain when the name of its file is. -/
theorem isPlain_locationText {l : Location} (h : ∀ file ∈ l.file, IsPlain file) :
    IsPlain l.text := by
  have hplace : IsPlain (l.line.text ++ ":" ++ l.column.text) :=
    ((isPlain_text _).append (by decide)).append (isPlain_text _)
  unfold Location.text
  split
  · rename_i file hfile
    exact ((isPlain_of_nonempty? h hfile).append (by decide)).append hplace
  · exact hplace

namespace Diagnostic

/-- The strings of a diagnostic hold no escape character. -/
structure HasPlainStrings (d : Diagnostic) : Prop where
  message : IsPlain d.message
  code : ∀ code ∈ d.code, IsPlain code
  file : ∀ span ∈ d.span, ∀ file ∈ span.start.file, IsPlain file
  hint : ∀ hint ∈ d.hint, IsPlain hint

variable {d : Diagnostic}

/-- The line with the level and the code is colored. -/
theorem isColored_header (h : d.HasPlainStrings) : IsColored (d.header true) (d.header false) := by
  have hlevel : IsColored (rendition true d.level.color) (rendition false d.level.color) := by
    cases d.level <;> exact .rendition (by decide) (by decide)
  have hname : IsColored d.level.text d.level.text := by
    cases d.level <;> exact .self (by decide)
  have hbold : IsColored (rendition true "1") (rendition false "1") :=
    .rendition (by decide) (by decide)
  have hreset : IsColored (rendition true "0") (rendition false "0") :=
    .rendition (by decide) (by decide)
  have htitle := ((hlevel.append hbold).append hname).append hreset
  refine ((htitle.append ?_).append (.self (by decide))).append (.self h.message)
  cases hcode : nonempty? d.code with
  | none => exact .self (by decide)
  | some code =>
    have hopen := hbold.append (.self (show IsPlain "[" by decide))
    have htext := hopen.append (.self (isPlain_of_nonempty? h.code hcode))
    exact (htext.append (.self (by decide))).append hreset

/-- Every line of a diagnostic is colored, or the same. -/
theorem isColored_lines (h : d.HasPlainStrings) :
    List.Forall₂ IsColored (d.lines true) (d.lines false) := by
  have hplace : List.Forall₂ IsColored
      (d.span.map fun span => "  --> " ++ span.start.text).toList
      (d.span.map fun span => "  --> " ++ span.start.text).toList := by
    cases hspan : d.span with
    | none => exact .nil
    | some span =>
      have hplain := isPlain_locationText (h.file span hspan)
      exact .cons (.self (IsPlain.append (by decide) hplain)) .nil
  have hhint : List.Forall₂ IsColored
      ((nonempty? d.hint).map fun hint =>
        "  " ++ rendition true Level.help.color ++ "hint" ++ rendition true "0" ++ ": " ++
          hint).toList
      ((nonempty? d.hint).map fun hint =>
        "  " ++ rendition false Level.help.color ++ "hint" ++ rendition false "0" ++ ": " ++
          hint).toList := by
    cases hhint : nonempty? d.hint with
    | none => exact .nil
    | some hint =>
      have hhelp : IsColored (rendition true Level.help.color) (rendition false Level.help.color) :=
        .rendition (by decide) (by decide)
      have hreset : IsColored (rendition true "0") (rendition false "0") :=
        .rendition (by decide) (by decide)
      have hindent := (IsColored.self (show IsPlain "  " by decide)).append hhelp
      have hword := (hindent.append (.self (show IsPlain "hint" by decide))).append hreset
      have htext := hword.append (.self (show IsPlain ": " by decide))
      exact .cons (htext.append (.self (isPlain_of_nonempty? h.hint hhint))) .nil
  exact .cons (isColored_header h) (List.rel_append hplace hhint)

/-- A diagnostic is colored. -/
theorem isColored_render (h : d.HasPlainStrings) : IsColored (d.render true) (d.render false) :=
  .intercalate (by decide) (isColored_lines h)

end Diagnostic

/-- So is all that a collector holds. -/
theorem Collector.isColored_render {c : Collector} (h : ∀ d ∈ c.diagnostics, d.HasPlainStrings) :
    IsColored (c.render true) (c.render false) :=
  .intercalate (by decide) (IsColored.map fun d hd => Diagnostic.isColored_render (h d hd))

/-! ### Reports -/

namespace Report

/-- The strings of a report hold no escape character. -/
structure HasPlainStrings (r : Report) : Prop where
  name : IsPlain r.name
  text : IsPlain r.text
  diagnostics : ∀ d ∈ r.diagnostics, d.HasPlainStrings

/-- The line of an answer has no color. -/
theorem isPlain_of_mem_answerLine {title line : String} {answer : Option (Option Bool)}
    (htitle : IsPlain title) (h : line ∈ answerLine title answer) : IsPlain line := by
  cases answer with
  | none => cases h
  | some verdict =>
    obtain rfl := List.mem_singleton.1 h
    have hword : IsPlain (answerText verdict) := by
      match verdict with
      | none => decide
      | some true => decide
      | some false => decide
    exact ((IsPlain.append (by decide) htitle).append (by decide)).append hword

/-- None of the four lines of answers has color. -/
theorem isPlain_of_mem_answerLines {r : Report} {line : String} (h : line ∈ r.answerLines) :
    IsPlain line := by
  simp only [answerLines, List.mem_append] at h
  rcases h with ((h | h) | h) | h <;> exact isPlain_of_mem_answerLine (by decide) h

/-- A report is colored in its diagnostics. -/
theorem isColored_format {r : Report} (h : r.HasPlainStrings) :
    IsColored (r.format true) (r.format false) := by
  have htitle : IsPlain (r.name ++ ": " ++ r.text) := (h.name.append (by decide)).append h.text
  have hanswers : List.Forall₂ IsColored r.answerLines r.answerLines :=
    List.forall₂_same.2 fun line hline => .self (isPlain_of_mem_answerLines hline)
  have hdiagnostics : List.Forall₂ IsColored (r.diagnostics.map fun d => d.render true)
      (r.diagnostics.map fun d => d.render false) :=
    IsColored.map fun d hd => Diagnostic.isColored_render (h.diagnostics d hd)
  rw [format_eq, format_eq]
  exact .intercalate (by decide) (.cons (.self htitle) (List.rel_append hanswers hdiagnostics))

/-- So are all reports together. -/
theorem isColored_formatAll {reports : List Report} (h : ∀ r ∈ reports, r.HasPlainStrings) :
    IsColored (formatAll reports true) (formatAll reports false) :=
  .intercalate (by decide) (IsColored.map fun r hr => isColored_format (h r hr))

end Report

/-- **Color changes nothing but escape sequences.**  Where no string holds an escape character,
reports written with color and without their escape sequences are the reports written without
color, which hold no escape character and are what is written by default; the same holds of the
diagnostics of a collector, which by default are written with color. -/
theorem uncolored_formatAll_and_render :
    (∀ reports : List Report, (∀ r ∈ reports, r.HasPlainStrings) →
      uncolored (Report.formatAll reports true) = Report.formatAll reports false ∧
      IsPlain (Report.formatAll reports false) ∧
      Report.formatAll reports = Report.formatAll reports false) ∧
    ∀ c : Collector, (∀ d ∈ c.diagnostics, d.HasPlainStrings) →
      uncolored (c.render true) = c.render false ∧ IsPlain (c.render false) ∧
      c.render = c.render true := by
  constructor
  · intro reports h
    have hcolored := Report.isColored_formatAll h
    exact ⟨hcolored.uncolored_eq, hcolored.isPlain, rfl⟩
  · intro c h
    have hcolored := Collector.isColored_render h
    exact ⟨hcolored.uncolored_eq, hcolored.isPlain, rfl⟩

/-- A diagnostic with every part. -/
def fullDiagnostic : Diagnostic where
  level := .error
  message := "m"
  span := some ⟨⟨some "a.f90", 1, .finite 7⟩, ⟨some "a.f90", 1, .finite 9⟩⟩
  code := some "C765"
  hint := some "h"

/-- A report that holds the diagnostic. -/
def fullReport : Report := ⟨"p", "x", some true, some ⟨false, [fullDiagnostic]⟩, some [], some none⟩

/-- The report and its diagnostic are colored by escape sequences, and by nothing else. -/
theorem uncolored_fullReport :
    ¬IsPlain (Report.formatAll [fullReport] true) ∧
    uncolored (Report.formatAll [fullReport] true) =
      "p: x\n  constant: yes\n  initial data target: no\n  specification expression: yes\n" ++
        "  simply contiguous: unknown\nerror[C765]: m\n  --> a.f90:1:7\n  hint: h" ∧
    uncolored ((Collector.empty.add fullDiagnostic).render) =
      "error[C765]: m\n  --> a.f90:1:7\n  hint: h" := by
  have hdiagnostic : fullDiagnostic.HasPlainStrings :=
    ⟨by decide, by decide, by decide, by decide⟩
  have hreport : fullReport.HasPlainStrings :=
    ⟨by decide, by decide, List.forall_mem_singleton.2 hdiagnostic⟩
  obtain ⟨hreports, hcollectors⟩ := uncolored_formatAll_and_render
  refine ⟨by decide +kernel, ?_, ?_⟩
  · rw [(hreports [fullReport] (List.forall_mem_singleton.2 hreport)).1]
    decide +kernel
  · rw [(hcollectors (Collector.empty.add fullDiagnostic)
      (List.forall_mem_singleton.2 hdiagnostic)).1]
    decide +kernel

end FortranExpr
