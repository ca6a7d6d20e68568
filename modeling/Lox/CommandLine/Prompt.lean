import Lox.CommandLine.Folder
import Lox.CommandLine.Output

/-!
# The prompt

`repl` scans its input line by line, each line as a source of its own, and shows the tokens and the
diagnostics of the line. A line that is no text ends the session.

## Main definitions

* `inputLines`: the lines of an input
* `answerLine`: what is shown for a line
* `replInput`: the whole session
-/

namespace Lox.CommandLine

/-- The byte that ends a line. -/
def lineFeed : UInt8 := 10

/-- A line without the carriage return before its line feed. -/
def dropReturn (line : List UInt8) : List UInt8 :=
  if line.getLast? = some 13 then line.dropLast else line

/-- The lines of an input. What follows the last line feed is a line if it is not empty. -/
def inputLines (bytes : List UInt8) : List (List UInt8) :=
  let parts := Text.pieces lineFeed bytes
  let rest := parts.getLastD []
  parts.dropLast.map dropReturn ++ if rest = [] then [] else [rest]

/-- What invites a line. -/
def prompt : Chunk := .out "> "

/-- What is shown for the text of a line. -/
def answerText (source : String) : List Chunk :=
  let s := scan source
  scanLog source ++ s.tokens.map (fun t => .out (t.text ++ "\n")) ++
    s.report.toList.map fun d => .err (d.text ++ "\n")

/-- What is shown for a line, or why it ends the session. -/
def answerLine (line : List UInt8) : Except ReadFailure (List Chunk) :=
  (decode ⟨line.toArray⟩).map answerText

/-- The last words of a session that cannot read on. -/
def inputFailed (failure : ReadFailure) : Chunk :=
  .err ("error: I/O error: " ++ failure.message ++ "\n")

/-- A session over lines of input: a prompt before every line and one at the end. -/
def replLines : List (List UInt8) → Outcome
  | [] => { chunks := [prompt, .out "\n"], exit := .success }
  | line :: rest =>
    match answerLine line with
    | .error failure => { chunks := [prompt, inputFailed failure], exit := .inputError }
    | .ok answer =>
      let outcome := replLines rest
      { outcome with chunks := prompt :: answer ++ outcome.chunks }

/-- **The command `repl`.** -/
def replInput (input : ByteArray) : Outcome :=
  replLines (inputLines input.toList)

end Lox.CommandLine
