import Lox.Diagnostic.Report
import Lox.Source.Basic
import Lox.Text.Styled

/-!
# Rendering of diagnostics

A diagnostic is rendered as a block of lines: a headline with the severity, the code and the
message; the place in the source, if the source is known; the line itself between two empty ones,
if the source has it; and one line for every note and suggestion. A bar divides the line numbers
from the text of the source.

## Main definitions

* `Rendering`: the source that diagnostics are about, and whether they are coloured
* `Diagnostic.layout`: the styled text of a diagnostic
* `Diagnostic.render`, `Report.render`: the block of a diagnostic, and all blocks of a report
-/

namespace Lox

open Text

/-- The source that diagnostics are about, if it is known, and whether they are coloured. -/
structure Rendering where
  source : Option Source
  coloured : Bool := true

namespace Rendering

/-- The rendering with colours or without. -/
def withColours (r : Rendering) (coloured : Bool) : Rendering := { r with coloured }

/-- The rendering without colours. -/
def withoutColours (r : Rendering) : Rendering := r.withColours false

end Rendering

/-- The style of the severity in a headline. -/
def Severity.style : Severity → Style
  | .error => .red
  | .warning => .yellow

namespace Diagnostic

/-- The severity, the code and the message. -/
def headline (d : Diagnostic) : List Piece :=
  let code := match d.code with
    | none => ""
    | some code => "[" ++ code.text ++ "]"
  [.style d.severity.style, .plain d.severity.name, .plain code, .style .reset, .style .bold,
   .plain ": ", .plain d.message, .style .reset, .plain "\n"]

/-- The name of the source and the line. -/
def place (d : Diagnostic) (source : Source) : List Piece :=
  [.plain " ", .style .blue, .plain "-->", .style .reset,
   .plain (" " ++ source.name ++ ":" ++ toString d.line.toNat ++ "\n")]

/-- An empty line beside the bar, behind a gutter as wide as a line number. -/
def gutter (number : String) : List Piece :=
  [.plain (" " ++ String.ofList (List.replicate number.length ' ') ++ " "), .style .blue,
   .plain "|", .style .reset, .plain "\n"]

/-- A line of the source beside its number, between two empty ones. -/
def snippet (number text : String) : List Piece :=
  gutter number ++
    [.plain " ", .style .blue, .plain number, .style .reset, .plain " |", .style .reset,
     .plain (" " ++ text ++ "\n")] ++
    gutter number

/-- A note or a suggestion under its label. -/
def remark (style : Style) (label text : String) : List Piece :=
  [.plain "   = ", .style style, .plain label, .style .reset, .plain (": " ++ text ++ "\n")]

/-- What is said of the source: the place, and the line if there is one. -/
def context (d : Diagnostic) (source : Source) : List Piece :=
  d.place source ++
    match source.line? d.line with
    | none => []
    | some text => snippet (toString d.line.toNat) text

/-- **The styled text of a diagnostic.** -/
def layout (d : Diagnostic) (source : Option Source) : List Piece :=
  d.headline ++
    (match source with
      | none => []
      | some source => d.context source) ++
    d.notes.flatMap (remark .bold "note") ++
    d.help.flatMap (remark .green "help")

/-- The block of a diagnostic. -/
def render (d : Diagnostic) (r : Rendering) : String :=
  write r.coloured (d.layout r.source)

end Diagnostic

/-- The blocks of all diagnostics, with an empty line between two of them. -/
def Report.render (report : Report) (r : Rendering) : String :=
  "\n".intercalate (report.toList.map (·.render r))

end Lox
