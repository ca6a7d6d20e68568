import Lox.CommandLine.Arguments
import Lox.CommandLine.FileCommands
import Lox.CommandLine.Prompt

/-!
# The program

The whole program as a function of its arguments, the files that it can read, and its input.

## Main definitions

* `Command.perform`: what comes of a command
* `Console`: what stands on the two streams at the end, and the exit
* `program`: what comes of the arguments
-/

namespace Lox.CommandLine

/-- What comes of a command. -/
def Command.perform (command : Command) (coloured : Bool)
    (read : String → Except ReadFailure ByteArray) (input : ByteArray) : Outcome :=
  match command with
  | .lex file => lexFile file (read file) coloured
  | .check file => checkFile file (read file) coloured
  | .repl => replInput input

/-- The name and the version of the program. -/
def versionText : String := "lox 0.1.0\n"

/-- How the program is called, in short. The text stands in for the help that the parser of the
arguments generates, which differs in its words and in its layout, and nothing is proved about
it. -/
def usageText : String :=
  "Usage: lox [-v...] [--no-color] <lex FILE | check FILE | repl>\n\n" ++
    "  lex FILE     list the tokens of a file\n" ++
    "  check FILE   check a file for errors\n" ++
    "  repl         scan lines typed at a prompt\n\n" ++
    "  -v, --verbose  log more, up to three times\n" ++
    "  --no-color     show diagnostics without colours\n" ++
    "  -h, --help     show this help\n" ++
    "  -V, --version  show the version\n"

/-- What comes of wrong arguments: the exit, behind a text that is a stand-in too. -/
def UsageError.outcome (error : UsageError) : Outcome where
  chunks := [.err ("error: " ++ error.message ++ "\n\n" ++ usageText)]
  exit := .usage

/-- What stands on the two streams at the end, and the exit. -/
structure Console where
  stdout : String
  stderr : String
  exit : Exit
  deriving DecidableEq

/-- The streams of an outcome at a verbosity. -/
def Outcome.console (outcome : Outcome) (verbosity : Nat) : Console :=
  { stdout := outcome.stdout, stderr := outcome.stderr verbosity, exit := outcome.exit }

/-- **What comes of the arguments.** -/
def program (arguments : List String) (read : String → Except ReadFailure ByteArray)
    (input : ByteArray) : Console :=
  match parse arguments with
  | .error error => error.outcome.console 0
  | .ok .version => Outcome.console { chunks := [.out versionText], exit := .success } 0
  | .ok .help => Outcome.console { chunks := [.out usageText], exit := .success } 0
  | .ok (.run options command) =>
    (command.perform options.coloured read input).console options.verbosity

end Lox.CommandLine
