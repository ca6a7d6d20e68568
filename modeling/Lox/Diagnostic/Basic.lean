import Lox.Text.Aligned

/-!
# Diagnostics

A diagnostic is a message about a line of a source, with a severity, an optional code, and notes
and suggestions in the order in which they were added.

## Main definitions

* `Severity`, `Code`, `Diagnostic`: what is reported
* `Code.text`, `Diagnostic.text`: the short forms of a code and of a diagnostic
* `Diagnostic.error`, `Diagnostic.warning`: a bare diagnostic, at line 0
* `Diagnostic.withCode`, `Diagnostic.withLine`, `Diagnostic.withNote`, `Diagnostic.withHelp`: a
  diagnostic with more detail
-/

namespace Lox

/-- How bad the reported matter is. -/
inductive Severity
  | error
  | warning
  deriving DecidableEq

namespace Severity

/-- The name of a severity. -/
def name : Severity → String
  | error => "error"
  | warning => "warning"

/-- The name at the beginning of a sentence. -/
def title : Severity → String
  | error => "Error"
  | warning => "Warning"

end Severity

/-- A code: the family of the diagnostic and its number therein. -/
structure Code where
  family : Char
  number : UInt16
  deriving DecidableEq

/-- A code in short: the family and at least three digits. -/
def Code.text (code : Code) : String :=
  String.ofList ['E', code.family] ++
    Text.Column.set { width := 3, side := .right, fill := '0' } (toString code.number.toNat)

/-- A message about a line of a source. -/
structure Diagnostic where
  severity : Severity
  code : Option Code := none
  message : String
  /-- The line, counted from one; zero if there is none. -/
  line : UInt32 := 0
  notes : List String := []
  /-- Suggestions. -/
  help : List String := []
  deriving DecidableEq

namespace Diagnostic

/-- An error that is nothing but its message. -/
def error (message : String) : Diagnostic := { severity := .error, message }

/-- A warning that is nothing but its message. -/
def warning (message : String) : Diagnostic := { severity := .warning, message }

/-- The diagnostic under a code, in place of the one it had. -/
def withCode (d : Diagnostic) (code : Code) : Diagnostic := { d with code := some code }

/-- The diagnostic at a line, in place of the one it had. -/
def withLine (d : Diagnostic) (line : UInt32) : Diagnostic := { d with line }

/-- The diagnostic with one more note. -/
def withNote (d : Diagnostic) (note : String) : Diagnostic :=
  { d with notes := d.notes ++ [note] }

/-- The diagnostic with one more suggestion. -/
def withHelp (d : Diagnostic) (help : String) : Diagnostic :=
  { d with help := d.help ++ [help] }

/-- Whether the diagnostic is an error, and no warning. -/
def isError (d : Diagnostic) : Bool := d.severity = .error

/-- The line, the severity and the message. -/
def text (d : Diagnostic) : String :=
  "[line " ++ toString d.line.toNat ++ "] " ++ d.severity.title ++ ": " ++ d.message

end Diagnostic

end Lox
