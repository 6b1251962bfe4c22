/-
# What arguments say

Arguments are settings, one after another, up to the first one that decides the outcome.

| arguments | setting |
| --- | --- |
| `--only` and the name of a predicate | the predicate that is to run alone; the last one counts |
| `--no-color` | diagnostics are not colored |
| one that does not begin with a hyphen | the file; a second one is an error |

A setting is known by what stands before it: a name right after `--only` is never an option or a
file.  `parseFrom_setting` is the step over one setting, `Stops` tells where reading stops instead
and with which outcome, and every list of arguments splits accordingly (`splits`).  So arguments
can be read exactly when they are settings with at most one file among them, and what they say
does not depend on the order of settings of different kinds.
-/

import FortranExpr.CommandLine
import Mathlib.Data.List.Induction

namespace FortranExpr

theorem Predicate.ofName?_eq_some_iff {name : String} {p : Predicate} :
    ofName? name = some p ↔ name = p.name := by
  constructor
  · intro h
    have hname := List.find?_some h
    exact (eq_of_beq hname).symm
  · rintro rfl
    cases p <;> rfl

namespace CommandLine

/-! ### Settings -/

/-- What one or two arguments set. -/
inductive Setting where
  | only (p : Predicate)
  | noColor
  | file (name : String) (plain : isOption name = false)
deriving DecidableEq

namespace Setting

/-- The arguments of a setting. -/
def arguments : Setting → List String
  | only p => ["--only", p.name]
  | noColor => ["--no-color"]
  | file name _ => [name]

/-- The predicate that is to run alone. -/
def predicate? : Setting → Option Predicate
  | only p => some p
  | noColor | file _ _ => none

/-- The name of the file. -/
def file? : Setting → Option String
  | file name _ => some name
  | only _ | noColor => none

end Setting

/-- Settings as arguments. -/
def written (settings : List Setting) : List String := settings.flatMap Setting.arguments

/-- The files that settings name. -/
def files (settings : List Setting) : List String := settings.filterMap Setting.file?

/-- The options that settings give: the last predicate, color on a terminal unless it is turned
off, and the file. -/
def optionsOf (terminal : Bool) (settings : List Setting) : Options where
  only := (settings.filterMap Setting.predicate?).getLast?
  color := if .noColor ∈ settings then false else terminal
  inputFile := (files settings).getLast?

/-- The options after one more setting. -/
def Options.after (options : Options) : Setting → Options
  | .only p => { options with only := some p }
  | .noColor => { options with color := false }
  | .file name _ => { options with inputFile := some name }

/-- The options after settings, one after another. -/
def Options.afterAll (options : Options) (settings : List Setting) : Options :=
  settings.foldl Options.after options

theorem afterAll_eq_optionsOf (terminal : Bool) (settings : List Setting) :
    (⟨none, terminal, none⟩ : Options).afterAll settings = optionsOf terminal settings := by
  induction settings using List.reverseRecOn with
  | nil => rfl
  | append_singleton settings s ih =>
    have hlast : (⟨none, terminal, none⟩ : Options).afterAll (settings ++ [s]) =
        (optionsOf terminal settings).after s := by
      rw [← ih]
      exact List.foldl_append
    rw [hlast]
    cases s <;> simp [optionsOf, files, Options.after, Setting.predicate?, Setting.file?]

/-- At most one file is named, the one that the options hold counted. -/
def Options.Admits (options : Options) (settings : List Setting) : Prop :=
  (options.inputFile.toList ++ files settings).length ≤ 1

variable {options : Options} {settings : List Setting} {arguments rest later : List String}
  {r : Request}

theorem admits_nil : options.Admits [] := by
  rw [Options.Admits, files, List.filterMap_nil, List.append_nil]
  exact Option.length_toList_le

theorem admits_cons_iff {s : Setting} : options.Admits (s :: settings) ↔
    (s.file? = none ∨ options.inputFile = none) ∧ (options.after s).Admits settings := by
  cases s with
  | only | noColor => exact (and_iff_right (.inl rfl)).symm
  | file name plain =>
    cases hfile : options.inputFile with
    | none => simp [Options.Admits, Options.after, files, Setting.file?, hfile]
    | some first => simp [Options.Admits, files, Setting.file?, hfile]

/-! ### One step -/

theorem ne_of_isOption {argument option : String} (h : isOption argument = false)
    (hoption : isOption option = true) : ¬argument = option := by
  rintro rfl
  exact Bool.false_ne_true (h.symm.trans hoption)

theorem parseFrom_only (options : Options) (name : String) (rest : List String) :
    parseFrom options ("--only" :: name :: rest) =
      match Predicate.ofName? name with
      | none => .failed (.unknownPredicate name)
      | some p => parseFrom { options with only := some p } rest := by
  rw [parseFrom.eq_def]
  exact if_pos rfl

theorem parseFrom_cons {argument : String} (h : ¬argument = "--only") (rest : List String) :
    parseFrom options (argument :: rest) =
      if argument = "--no-color" then parseFrom { options with color := false } rest
      else if argument = "-h" ∨ argument = "--help" then .help
      else if isOption argument then .failed (.unknownOption argument)
      else if options.inputFile.isNone then
        parseFrom { options with inputFile := some argument } rest
      else .failed (.unexpectedArgument argument) := by
  rw [parseFrom.eq_def]
  exact if_neg h

/-- What is no option is a file, the first one or one too many. -/
theorem parseFrom_file {name : String} (plain : isOption name = false) (rest : List String) :
    parseFrom options (name :: rest) =
      if options.inputFile.isNone then parseFrom { options with inputFile := some name } rest
      else .failed (.unexpectedArgument name) := by
  rw [parseFrom_cons (ne_of_isOption plain rfl), if_neg (ne_of_isOption plain rfl),
    if_neg (not_or.2 ⟨ne_of_isOption plain rfl, ne_of_isOption plain rfl⟩), plain,
    if_neg Bool.false_ne_true]

/-- **A setting is read,** but for a second file. -/
theorem parseFrom_setting {s : Setting} (h : s.file? = none ∨ options.inputFile = none) :
    parseFrom options (s.arguments ++ rest) = parseFrom (options.after s) rest := by
  cases s with
  | only p =>
    have hname : Predicate.ofName? p.name = some p := Predicate.ofName?_eq_some_iff.2 rfl
    refine (parseFrom_only options p.name rest).trans ?_
    rw [hname]
    rfl
  | noColor =>
    refine (parseFrom_cons (by decide) rest).trans ?_
    exact if_pos rfl
  | file name plain =>
    have hnone : options.inputFile = none := h.resolve_left nofun
    refine (parseFrom_file plain rest).trans ?_
    rw [hnone]
    rfl

/-- Reading stops at the first of these arguments, with this outcome; a file was named before,
or not. -/
inductive Stops (named : Bool) : List String → Request → Prop where
  | help {argument : String} {rest : List String} (h : argument = "-h" ∨ argument = "--help") :
      Stops named (argument :: rest) .help
  | missingPredicate : Stops named ["--only"] (.failed .missingPredicate)
  | unknownPredicate {name : String} {rest : List String} (h : Predicate.ofName? name = none) :
      Stops named ("--only" :: name :: rest) (.failed (.unknownPredicate name))
  | unknownOption {argument : String} {rest : List String} (h : isOption argument = true)
      (unknown : argument ∉ ["--only", "--no-color", "-h", "--help"]) :
      Stops named (argument :: rest) (.failed (.unknownOption argument))
  | unexpectedArgument {argument : String} {rest : List String} (h : isOption argument = false)
      (second : named = true) :
      Stops named (argument :: rest) (.failed (.unexpectedArgument argument))

/-- **What stops the reading** decides the outcome. -/
theorem Stops.parseFrom_eq (h : Stops options.inputFile.isSome arguments r) :
    parseFrom options arguments = r := by
  cases h with
  | help h => rcases h with rfl | rfl <;> exact parseFrom_cons (by decide) _
  | missingPredicate => rfl
  | unknownPredicate h => rw [parseFrom_only, h]
  | unknownOption h unknown =>
    simp only [List.mem_cons, List.not_mem_nil, or_false, not_or] at unknown
    rw [parseFrom_cons unknown.1, if_neg unknown.2.1, if_neg (not_or.2 unknown.2.2), if_pos h]
  | unexpectedArgument h second =>
    have hsome : options.inputFile.isNone = false := by
      rw [← Option.not_isSome, second]
      rfl
    rw [parseFrom_file h, hsome, if_neg Bool.false_ne_true]

/-- It does so whatever comes after, but for the end where a predicate has to be named. -/
theorem Stops.append {named : Bool} (h : Stops named arguments r)
    (hr : r ≠ .failed .missingPredicate) (later : List String) :
    Stops named (arguments ++ later) r := by
  cases h with
  | help h => exact .help h
  | missingPredicate => exact absurd rfl hr
  | unknownPredicate h => exact .unknownPredicate h
  | unknownOption h unknown => exact .unknownOption h unknown
  | unexpectedArgument h second => exact .unexpectedArgument h second

theorem Stops.ne_check {named : Bool} (h : Stops named arguments r) (options : Options) :
    r ≠ .check options := by
  cases h <;> exact nofun

/-! ### All arguments -/

/-- Settings are read one after another. -/
theorem parseFrom_written (h : options.Admits settings) :
    parseFrom options (written settings ++ rest) = parseFrom (options.afterAll settings) rest := by
  induction settings generalizing options with
  | nil => rfl
  | cons s settings ih =>
    obtain ⟨hs, hsettings⟩ := admits_cons_iff.1 h
    rw [written, List.flatMap_cons, List.append_assoc, parseFrom_setting hs, ← written,
      ih hsettings]
    rfl

/-- The arguments are settings, to the end or up to where reading stops. -/
def Splits (options : Options) (arguments : List String) : Prop :=
  ∃ settings rest, arguments = written settings ++ rest ∧ options.Admits settings ∧
    (rest = [] ∨ ∃ r, Stops (options.afterAll settings).inputFile.isSome rest r)

theorem Splits.setting {s : Setting} (hs : s.file? = none ∨ options.inputFile = none)
    (h : Splits (options.after s) rest) : Splits options (s.arguments ++ rest) := by
  obtain ⟨settings, later, rfl, hsettings, hend⟩ := h
  exact ⟨s :: settings, later, (List.append_assoc ..).symm, admits_cons_iff.2 ⟨hs, hsettings⟩,
    hend⟩

theorem Stops.splits (h : Stops options.inputFile.isSome arguments r) :
    Splits options arguments :=
  ⟨[], arguments, rfl, admits_nil, .inr ⟨r, h⟩⟩

/-- **All arguments are settings up to where reading stops.** -/
theorem splits (options : Options) (arguments : List String) : Splits options arguments := by
  fun_induction parseFrom options arguments with
  | case1 options => exact ⟨[], [], rfl, admits_nil, .inl rfl⟩
  | case2 options => exact Stops.missingPredicate.splits
  | case3 options name rest hname => exact (Stops.unknownPredicate hname).splits
  | case4 options name rest p hname ih =>
    obtain rfl := Predicate.ofName?_eq_some_iff.1 hname
    exact Splits.setting (s := .only p) (.inl rfl) ih
  | case5 options rest _ ih => exact Splits.setting (s := .noColor) (.inl rfl) ih
  | case6 options argument rest _ _ hhelp => exact (Stops.help hhelp).splits
  | case7 options argument rest honly hcolor hhelp hoption =>
    refine (Stops.unknownOption hoption ?_).splits
    simp only [List.mem_cons, List.not_mem_nil, or_false, not_or]
    exact ⟨honly, hcolor, not_or.1 hhelp⟩
  | case8 options argument rest _ _ _ hoption hfirst ih =>
    exact Splits.setting (s := .file argument (eq_false_of_ne_true hoption))
      (.inr (Option.isNone_iff_eq_none.1 hfirst)) ih
  | case9 options argument rest _ _ _ hoption hsecond =>
    refine (Stops.unexpectedArgument (eq_false_of_ne_true hoption) ?_).splits
    exact Option.isSome_iff_ne_none.2 fun hnone => hsecond (Option.isNone_iff_eq_none.2 hnone)

variable {terminal : Bool}

/-- Settings with at most one file are read, and the options that they give are kept. -/
theorem parse_written_append (hfiles : (files settings).length ≤ 1) :
    parse terminal (written settings ++ rest) = parseFrom (optionsOf terminal settings) rest := by
  have hread : parseFrom ⟨none, terminal, none⟩ (written settings ++ rest) = _ :=
    parseFrom_written hfiles
  rw [afterAll_eq_optionsOf] at hread
  exact hread

/-- Settings with at most one file are read to the end. -/
theorem parse_written (hfiles : (files settings).length ≤ 1) :
    parse terminal (written settings) = .check (optionsOf terminal settings) := by
  rw [← List.append_nil (written settings), parse_written_append hfiles]
  rfl

/-- Behind settings with at most one file, what stops the reading decides the outcome. -/
theorem parse_eq_of_stops (hfiles : (files settings).length ≤ 1)
    (h : Stops (optionsOf terminal settings).inputFile.isSome rest r) :
    parse terminal (written settings ++ rest) = r :=
  (parse_written_append hfiles).trans h.parseFrom_eq

/-- Arguments are settings with at most one file, to the end or up to where reading stops. -/
theorem written_or_stops (terminal : Bool) (arguments : List String) :
    ∃ settings, (files settings).length ≤ 1 ∧ (arguments = written settings ∨
      ∃ rest r, arguments = written settings ++ rest ∧
        Stops (optionsOf terminal settings).inputFile.isSome rest r) := by
  obtain ⟨settings, rest, rfl, hfiles, hend⟩ := splits ⟨none, terminal, none⟩ arguments
  rw [afterAll_eq_optionsOf] at hend
  refine ⟨settings, hfiles, ?_⟩
  rcases hend with rfl | ⟨r, hstop⟩
  · exact .inl (List.append_nil _)
  · exact .inr ⟨rest, r, rfl, hstop⟩

/-- An outcome that is not options comes from what stops the reading. -/
theorem exists_stops_of_parse (h : parse terminal arguments = r)
    (hr : ∀ options, r ≠ .check options) :
    ∃ settings rest, (files settings).length ≤ 1 ∧ arguments = written settings ++ rest ∧
      Stops (optionsOf terminal settings).inputFile.isSome rest r := by
  obtain ⟨settings, hfiles, rfl | ⟨rest, r', rfl, hstop⟩⟩ := written_or_stops terminal arguments
  · exact absurd (h.symm.trans (parse_written hfiles)) (hr _)
  · obtain rfl : r' = r := (parse_eq_of_stops hfiles hstop).symm.trans h
    exact ⟨settings, rest, hfiles, rfl, hstop⟩

/-- **An error stays,** whatever arguments come after, but for the end where a predicate has to
be named. -/
theorem parse_append_of_failed {e : ArgumentError} (h : parse terminal arguments = .failed e)
    (he : e ≠ .missingPredicate) (later : List String) :
    parse terminal (arguments ++ later) = .failed e := by
  obtain ⟨settings, rest, hfiles, rfl, hstop⟩ := exists_stops_of_parse h nofun
  rw [List.append_assoc]
  exact parse_eq_of_stops hfiles (hstop.append (fun hr => he (Request.failed.inj hr)) later)

/-- **Arguments can be read** exactly when they are settings with at most one file. -/
theorem parse_eq_check_iff : parse terminal arguments = .check options ↔
    ∃ settings, arguments = written settings ∧ (files settings).length ≤ 1 ∧
      options = optionsOf terminal settings := by
  constructor
  · intro h
    obtain ⟨settings, hfiles, rfl | ⟨rest, r, rfl, hstop⟩⟩ := written_or_stops terminal arguments
    · exact ⟨settings, rfl, hfiles, (Request.check.inj ((parse_written hfiles).symm.trans h)).symm⟩
    · exact absurd ((parse_eq_of_stops hfiles hstop).symm.trans h) (hstop.ne_check _)
  · rintro ⟨settings, rfl, hfiles, rfl⟩
    exact parse_written hfiles

/-- **Help is asked for** behind settings with at most one file. -/
theorem parse_eq_help_iff : parse terminal arguments = .help ↔
    ∃ settings request later, arguments = written settings ++ request :: later ∧
      (files settings).length ≤ 1 ∧ (request = "-h" ∨ request = "--help") := by
  constructor
  · intro h
    obtain ⟨settings, rest, hfiles, rfl, hstop⟩ := exists_stops_of_parse h nofun
    cases hstop with
    | help hrequest => exact ⟨settings, _, _, rfl, hfiles, hrequest⟩
  · rintro ⟨settings, request, later, rfl, hfiles, hrequest⟩
    exact parse_eq_of_stops hfiles (.help hrequest)

/-- Settings in another order give the same options, if their predicates come in the same
order. -/
theorem optionsOf_eq_of_perm {settings' : List Setting} (hperm : settings'.Perm settings)
    (hfiles : (files settings).length ≤ 1)
    (hpredicates : settings'.filterMap Setting.predicate? = settings.filterMap Setting.predicate?) :
    optionsOf terminal settings' = optionsOf terminal settings := by
  have hfilesPerm : (files settings').Perm (files settings) := hperm.filterMap _
  have hsame : files settings' = files settings := by
    cases hlist : files settings with
    | nil => exact List.perm_nil.1 (hlist ▸ hfilesPerm)
    | cons name others =>
      rw [hlist, List.length_cons] at hfiles
      obtain rfl : others = [] := List.length_eq_zero_iff.1 (by omega)
      exact List.perm_singleton.1 (hlist ▸ hfilesPerm)
  rw [optionsOf, optionsOf, hpredicates, hsame]
  simp only [hperm.mem_iff]

/-- **Arguments are read from left to right, and the first that decides the outcome wins.**  An
error other than a missing predicate stays whatever comes after it.  Arguments can be read exactly
when they are settings with at most one file: the last predicate counts, color is off if it is
turned off anywhere and otherwise as the terminal has it, and the file is the one named, if any.
So settings in another order say the same, if their predicates come in the same order.  Help is
given exactly when it is asked for behind such settings. -/
theorem parse_first_decides (terminal : Bool) (arguments : List String) :
    (∀ e later, parse terminal arguments = .failed e → e ≠ .missingPredicate →
      parse terminal (arguments ++ later) = .failed e) ∧
    (∀ options, parse terminal arguments = .check options ↔
      ∃ settings, arguments = written settings ∧ (files settings).length ≤ 1 ∧
        options = optionsOf terminal settings) ∧
    (∀ settings settings' : List Setting, (files settings).length ≤ 1 → settings'.Perm settings →
      settings'.filterMap Setting.predicate? = settings.filterMap Setting.predicate? →
      parse terminal (written settings') = parse terminal (written settings)) ∧
    (parse terminal arguments = .help ↔
      ∃ settings request later, arguments = written settings ++ request :: later ∧
        (files settings).length ≤ 1 ∧ (request = "-h" ∨ request = "--help")) := by
  refine ⟨fun e later h he => parse_append_of_failed h he later, fun _ => parse_eq_check_iff,
    fun settings settings' hfiles hperm hpredicates => ?_, parse_eq_help_iff⟩
  have hfiles' : (files settings').length ≤ 1 := by
    rw [files, (hperm.filterMap _).length_eq]
    exact hfiles
  rw [parse_written hfiles, parse_written hfiles', optionsOf_eq_of_perm hperm hfiles hpredicates]

/-- An unknown option before a request for help is an error, and the last of two predicates
counts wherever the other settings stand. -/
theorem parse_first_decides_twoPredicates :
    parse true ["a.json", "--verbose", "-h"] = .failed (.unknownOption "--verbose") ∧
    parse true ["--only", "constant", "--only", "contiguous", "--no-color", "a.json"] =
      .check ⟨some .contiguous, false, some "a.json"⟩ ∧
    parse true ["a.json", "--only", "constant", "--no-color", "--only", "contiguous"] =
      parse true ["--only", "constant", "--only", "contiguous", "--no-color", "a.json"] := by
  refine ⟨?_, ?_, ?_⟩
  · exact (parse_first_decides true ["a.json", "--verbose"]).1 _ ["-h"] (by decide) (by decide)
  · exact ((parse_first_decides true _).2.1 _).2
      ⟨[.only .constant, .only .contiguous, .noColor, .file "a.json" (by decide)],
        rfl, by decide, by decide⟩
  · exact (parse_first_decides true []).2.2.1
      [.only .constant, .only .contiguous, .noColor, .file "a.json" (by decide)]
      [.file "a.json" (by decide), .only .constant, .noColor, .only .contiguous]
      (by decide) (by decide) (by decide)

end CommandLine
end FortranExpr
