import Lox.Scan.Event

/-!
# Output of a command

A command writes text to its two streams and entries to a log, which shares the stream for errors.
An entry is written only if its level is not above the verbosity.

## Main definitions

* `Chunk`: what is written at a time
* `Exit`, `Exit.code`: how a command ends
* `Outcome`, `Outcome.stdout`, `Outcome.stderr`: all that a command writes, and how it ends
-/

namespace Lox.CommandLine

/-- What is written at a time. -/
inductive Chunk
  | out (text : String)
  | err (text : String)
  | log (entry : Entry)
  deriving DecidableEq

namespace Chunk

/-- The part of a chunk on the standard output. -/
def stdout : Chunk → String
  | out text => text
  | err _ | log _ => ""

/-- The part of a chunk on the stream for errors, at a verbosity. -/
def stderr (verbosity : Nat) : Chunk → String
  | out _ => ""
  | err text => text
  | log entry => if entry.level.threshold ≤ verbosity then entry.text ++ "\n" else ""

end Chunk

/-- How a command ends. -/
inductive Exit
  | success
  | usage
  /-- The source has errors. -/
  | dataError
  /-- The file cannot be read. -/
  | noInput
  /-- The standard input cannot be read. -/
  | inputError
  deriving DecidableEq

/-- The code that tells the end to the system. -/
def Exit.code : Exit → UInt8
  | success => 0
  | usage => 2
  | dataError => 65
  | noInput => 66
  | inputError => 74

/-- All that a command writes, in order, and how it ends. -/
structure Outcome where
  chunks : List Chunk
  exit : Exit
  deriving DecidableEq

namespace Outcome

/-- The standard output. -/
def stdout (outcome : Outcome) : String :=
  String.join (outcome.chunks.map Chunk.stdout)

/-- The stream for errors, at a verbosity. -/
def stderr (outcome : Outcome) (verbosity : Nat) : String :=
  String.join (outcome.chunks.map (Chunk.stderr verbosity))

end Outcome

/-- The log of a scan. -/
def scanLog (source : String) : List Chunk :=
  (events source).map fun e => .log e.entry

end Lox.CommandLine
