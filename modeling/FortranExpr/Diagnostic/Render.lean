/-
# Rendering of diagnostics

A diagnostic takes up to three lines:

    error[C765]: the message
      --> a.f90:3:7
      hint: what to do

A code, a file or a hint that is empty is left out like one that is absent.  With
color, escape sequences of the form `ESC [ digits m` surround the level, the code and
the word `hint`, and the text is otherwise the same.
-/

import FortranExpr.Diagnostic.Collector
import FortranExpr.Number.Layout

namespace FortranExpr

/-- The name of a level. -/
def Level.text : Level → String
  | error => "error"
  | warning => "warning"
  | note => "note"
  | help => "help"

/-- An escape sequence that selects a rendition, or nothing without color. -/
def rendition (color : Bool) (digits : String) : String :=
  if color then "\x1b[" ++ digits ++ "m" else ""

/-- The color of a level: red, yellow, cyan, green. -/
def Level.color : Level → String
  | error => "31"
  | warning => "33"
  | note => "36"
  | help => "32"

/-- A text that is present and not empty. -/
def nonempty? (text : Option String) : Option String := text.filter fun s => !s.isEmpty

/-- The file, when it has a name, the line and the column. -/
def Location.text (l : Location) : String :=
  let place := l.line.text ++ ":" ++ l.column.text
  match nonempty? l.file with
  | some file => file ++ ":" ++ place
  | none => place

namespace Diagnostic

/-- The level, the code and the message. -/
def header (d : Diagnostic) (color : Bool) : String :=
  let bold := rendition color "1"
  let reset := rendition color "0"
  rendition color d.level.color ++ bold ++ d.level.text ++ reset ++
    (match nonempty? d.code with
      | some code => bold ++ "[" ++ code ++ "]" ++ reset
      | none => "") ++
    ": " ++ d.message

/-- The lines of a diagnostic. -/
def lines (d : Diagnostic) (color : Bool) : List String :=
  let place := d.span.map fun span => "  --> " ++ span.start.text
  let hint := (nonempty? d.hint).map fun hint =>
    "  " ++ rendition color Level.help.color ++ "hint" ++ rendition color "0" ++ ": " ++ hint
  d.header color :: (place.toList ++ hint.toList)

/-- A diagnostic as text. -/
def render (d : Diagnostic) (color : Bool := true) : String :=
  "\n".intercalate (d.lines color)

end Diagnostic

/-- The diagnostics of a collector as text. -/
def Collector.render (c : Collector) (color : Bool := true) : String :=
  "\n".intercalate (c.diagnostics.map fun d => d.render color)

end FortranExpr
