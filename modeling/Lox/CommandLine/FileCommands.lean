import Lox.CommandLine.Folder
import Lox.CommandLine.Output
import Lox.Diagnostic.Rendering
import Lox.Text.Blank

/-!
# Commands on a file

`lex` lists the tokens of a file and `check` only counts them. Both render the diagnostics of the
file to the stream for errors and end with an error if there are any.

## Main definitions

* `Token.row`: a token in the list of `lex`
* `lexFile`, `checkFile`: the two commands, given what came of reading the file
-/

namespace Lox

/-- A token in a list: its line, kind, lexeme and value, without blanks at the end. -/
def Token.row (token : Token) : String :=
  let columns := Text.padStart 4 (toString token.line.toNat) ++ "  " ++
    Text.padEnd 14 token.kind.name ++ " " ++ token.lexeme
  let value := match token.literal with
    | none => ""
    | some literal => " " ++ literal.text
  Text.trimEnd (columns ++ value)

namespace CommandLine

/-- The announcement of what is done with a file. -/
def announce (activity file : String) : Chunk :=
  .log { level := .info, target := "lox", message := activity ++ " " ++ file }

/-- The end of a command that cannot read its file. -/
def readFailed (file : String) (failure : ReadFailure) : Outcome where
  chunks := [.err ("error: could not read " ++ file ++ ": " ++ failure.message ++ "\n")]
  exit := .noInput

/-- The diagnostics of a file, rendered. -/
def renderFile (file source : String) (coloured : Bool) : String :=
  (scan source).report.render { source := some (.ofText file source), coloured }

/-- The list of the tokens and their number. -/
def listing (tokens : List Token) : String :=
  String.join (tokens.map fun t => t.row ++ "\n") ++
    "\nTotal: " ++ toString tokens.length ++ " tokens\n"

/-- The list of the tokens of a source, and its diagnostics behind an empty line. -/
def lexSource (file source : String) (coloured : Bool) : Outcome :=
  let s := scan source
  let listed := scanLog source ++ [.out (listing s.tokens)]
  if s.report.hasErrors then
    { chunks := listed ++ [.err ("\n" ++ renderFile file source coloured ++ "\n")]
      exit := .dataError }
  else { chunks := listed, exit := .success }

/-- The number of the tokens of a source, or its diagnostics and their number. -/
def checkSource (file source : String) (coloured : Bool) : Outcome :=
  let s := scan source
  if s.report.hasErrors then
    { chunks := scanLog source ++
        [.err (renderFile file source coloured ++ "\n"),
         .err ("Found " ++ toString s.report.size ++ " error(s) in " ++ file ++ "\n")]
      exit := .dataError }
  else
    { chunks := scanLog source ++
        [.out ("  [ok] Lexer: " ++ toString s.tokens.length ++ " tokens\n")]
      exit := .success }

/-- A command on a file: the announcement, and what comes of its text. -/
def onFile (activity file : String) (bytes : Except ReadFailure ByteArray)
    (command : String → Outcome) : Outcome :=
  let outcome := match bytes.bind decode with
    | .error failure => readFailed file failure
    | .ok source => command source
  { outcome with chunks := announce activity file :: outcome.chunks }

/-- **The command `lex`.** -/
def lexFile (file : String) (bytes : Except ReadFailure ByteArray) (coloured : Bool) : Outcome :=
  onFile "tokenizing" file bytes (lexSource file · coloured)

/-- **The command `check`.** -/
def checkFile (file : String) (bytes : Except ReadFailure ByteArray) (coloured : Bool) : Outcome :=
  onFile "checking" file bytes (checkSource file · coloured)

end CommandLine

end Lox
