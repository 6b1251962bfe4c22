/-
# The command line

    check <fixture.json> [--only <check>] [--no-color] [-h | --help]

Arguments are read from left to right, and the first one that decides the outcome
wins: a request for help, or an error.

| exit code | outcome |
| ---: | --- |
| 0 | every check ran without an error, or help was asked for |
| 1 | an error was reported, or the arguments, the file or the fixture are wrong, or there are no arguments |
-/

import FortranExpr.Fixture.Load

namespace FortranExpr
namespace CommandLine

/-- How a fixture is to be checked. -/
structure Options where
  only : Option Predicate
  color : Bool
  inputFile : Option String
deriving DecidableEq

/-- What can be wrong with arguments. -/
inductive ArgumentError where
  | missingPredicate
  | unknownPredicate (name : String)
  | unknownOption (argument : String)
  | unexpectedArgument (argument : String)
deriving DecidableEq

/-- The error in words. -/
def ArgumentError.message : ArgumentError → String
  | missingPredicate => "missing value for --only"
  | unknownPredicate name => "unknown check '" ++ name ++ "'"
  | unknownOption argument => "unknown option '" ++ argument ++ "'"
  | unexpectedArgument argument => "unexpected argument '" ++ argument ++ "'"

/-- What arguments ask for. -/
inductive Request where
  | help
  | failed (e : ArgumentError)
  | check (options : Options)
deriving DecidableEq

/-- An argument that begins with a hyphen is an option. -/
def isOption (argument : String) : Bool := argument.toList.head? == some '-'

/-- Reads arguments after those that gave `options`. -/
def parseFrom (options : Options) : List String → Request
  | [] => .check options
  | argument :: rest =>
    if argument = "--only" then
      match rest with
      | [] => .failed .missingPredicate
      | name :: rest =>
        match Predicate.ofName? name with
        | none => .failed (.unknownPredicate name)
        | some p => parseFrom { options with only := some p } rest
    else if argument = "--no-color" then parseFrom { options with color := false } rest
    else if argument = "-h" ∨ argument = "--help" then .help
    else if isOption argument then .failed (.unknownOption argument)
    else if options.inputFile.isNone then
      parseFrom { options with inputFile := some argument } rest
    else .failed (.unexpectedArgument argument)

/-- Reads arguments; diagnostics are colored on a terminal unless that is turned off. -/
def parse (terminal : Bool) (arguments : List String) : Request :=
  parseFrom ⟨none, terminal, none⟩ arguments

/-- The exit code of a run, and the lines it prints. -/
structure Outcome where
  exitCode : Nat
  output : List String
  errors : List String
deriving DecidableEq

/-- The help text. -/
def helpLines : List String :=
  ["Fortran expression checks",
    "",
    "Usage: tsx main.ts check <fixture.json> [options]",
    "",
    "Options:",
    "  --only <check>   Run one check: constant, initial-target,",
    "                   specification or contiguous",
    "  --no-color       Never color diagnostics",
    "  -h, --help       Show this help"]

/-- Help on the standard output. -/
def help (exitCode : Nat) : Outcome := ⟨exitCode, helpLines, []⟩

/-- An error ends the run. -/
def failure (message : String) : Outcome := ⟨1, [], ["error: " ++ message]⟩

/-- Why a file that does not exist cannot be opened. -/
def noSuchFile (file : String) : String :=
  "ENOENT: no such file or directory, open '" ++ file ++ "'"

/-- Checks the text of a file.  There is no outcome when the message about the text
cannot be written. -/
def checkText (options : Options) (file text : String) : Option Outcome :=
  match Fixture.ofText (some file) text with
  | .error .unprintable => none
  | .error (.rejected r) =>
    some (failure (file ++ ": " ++ r.message ++ " at " ++ r.path.text))
  | .ok fixture =>
    let reports := fixture.run ⟨options.only.map Predicate.name⟩
    some ⟨if Report.anyErrors reports then 1 else 0,
      [Report.formatAll reports options.color], []⟩

/-- A run up to the point where it needs the text of a file. -/
inductive Run where
  | finished (outcome : Outcome)
  | needs (file : String) (options : Options)

/-- Starts a check with the given arguments. -/
def startCheck (terminal : Bool) (arguments : List String) : Run :=
  if arguments.isEmpty then .finished (help 1)
  else
    match parse terminal arguments with
    | .help => .finished (help 0)
    | .failed e => .finished (failure e.message)
    | .check options =>
      match nonempty? options.inputFile with
      | none => .finished (failure "no fixture file specified")
      | some file => .needs file options

/-- Starts a run of the program: `check` is the only command. -/
def start (terminal : Bool) (arguments : List String) : Run :=
  match arguments with
  | [] => .finished (help 1)
  | command :: rest =>
    if command = "check" then startCheck terminal rest
    else if command = "-h" ∨ command = "--help" then .finished (help 0)
    else .finished (help 1)

/-- Ends a run, given the text of the file it needs, or why that cannot be read. -/
def Run.finish (run : Run) (read : String → Except String String) : Option Outcome :=
  match run with
  | finished outcome => some outcome
  | needs file options =>
    match read file with
    | .error reason => some (failure ("failed to read " ++ file ++ ": " ++ reason))
    | .ok text => checkText options file text

end CommandLine
end FortranExpr
