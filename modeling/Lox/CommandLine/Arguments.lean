/-!
# Command-line arguments

The command line is a command with its file, and flags on either side of the command. An argument
of dashes stands for flags, the short ones also several at a time, until the argument `--`; every
other argument is a word. The first mistake counts. Behind the command `help` every argument is a
word, and only the name of a command may follow.

The flags before the command and those after it are read apart. A count of `-v` after the command
takes the place of the count before it, and `--no-color` may stand once on each side.

## Main definitions

* `Flag`, `flagsOf`: the flags that an argument stands for
* `Mark`, `marks`: what the arguments after the command say one by one
* `Command`, `Options`, `Request`: what all arguments ask for together
* `UsageError`: what can be wrong with them
* `UsageError.message`: stand-ins for the words in which that is said
* `parse`: the request that the arguments make
-/

namespace Lox.CommandLine

/-- The flags. -/
inductive Flag
  | verbose
  | noColor
  | version
  | help
  deriving DecidableEq

/-- What can be wrong with the arguments. -/
inductive UsageError
  | unknownFlag (flag : String)
  | flagValue (flag : String)
  | repeatedFlag (flag : String)
  | missingCommand
  | unknownCommand (word : String)
  | missingFile
  | emptyFile
  | extraWord (word : String)
  deriving DecidableEq

/-- What is wrong, in words. They stand in for the messages that the parser of the arguments
generates, which read differently, and nothing is proved about them. -/
def UsageError.message : UsageError → String
  | unknownFlag flag => "unexpected argument '" ++ flag ++ "'"
  | flagValue flag => "the flag '" ++ flag ++ "' takes no value"
  | repeatedFlag flag => "the flag '" ++ flag ++ "' stands twice"
  | missingCommand => "a command is missing"
  | unknownCommand word => "unknown command '" ++ word ++ "'"
  | missingFile => "the file is missing"
  | emptyFile => "the name of the file is empty"
  | extraWord word => "unexpected argument '" ++ word ++ "'"

/-- The flag of a letter behind a single dash. -/
def shortFlag (c : Char) : Except UsageError Flag :=
  match c with
  | 'v' => .ok .verbose
  | 'V' => .ok .version
  | 'h' => .ok .help
  | c => .error (.unknownFlag (String.ofList ['-', c]))

/-- The flag of a name behind two dashes, to which no value may be attached. -/
def longFlag (name : List Char) : Except UsageError Flag :=
  let label := name.takeWhile (· ≠ '=')
  let full := String.ofList ('-' :: '-' :: label)
  let flag? : Option Flag := match String.ofList label with
    | "verbose" => some .verbose
    | "no-color" => some .noColor
    | "version" => some .version
    | "help" => some .help
    | _ => none
  match flag? with
  | none => .error (.unknownFlag full)
  | some flag => if label = name then .ok flag else .error (.flagValue full)

/-- The flags that an argument stands for, or what is wrong with them: none for a word, a single
dash, and `--`. -/
def flagsOf (argument : String) : List (Except UsageError Flag) :=
  match argument.toList with
  | ['-', '-'] => []
  | '-' :: '-' :: name => [longFlag name]
  | '-' :: c :: letters => shortFlag c :: letters.map shortFlag
  | _ => []

/-- What an argument, or a part of one, says. -/
inductive Mark
  | flag (flag : Except UsageError Flag)
  | word (text : String)

/-- What the arguments say. Behind `--` there are only words. -/
def marks : List String → List Mark
  | [] => []
  | argument :: rest =>
    if argument = "--" then rest.map .word
    else
      match flagsOf argument with
      | [] => .word argument :: marks rest
      | flags => flags.map .flag ++ marks rest

/-- The commands by name. -/
inductive Verb
  | lex
  | check
  | repl
  deriving DecidableEq

/-- A command with what it works on. -/
inductive Command
  | lex (file : String)
  | check (file : String)
  | repl
  deriving DecidableEq

/-- The options of a command. -/
structure Options where
  verbosity : Nat
  coloured : Bool
  deriving DecidableEq

/-- What the arguments ask for. -/
inductive Request
  | version
  | help
  | run (options : Options) (command : Command)
  deriving DecidableEq

/-- The flags on one side of the command. -/
structure Flags where
  verbose : Nat := 0
  noColor : Bool := false
  deriving DecidableEq

/-- The options that the flags before and after the command make together. -/
def Flags.options (outer inner : Flags) : Options :=
  { verbosity := if inner.verbose = 0 then outer.verbose else inner.verbose
    coloured := !(outer.noColor || inner.noColor) }

/-- The command with this name. -/
def Verb.ofName? : String → Option Verb
  | "lex" => some .lex
  | "check" => some .check
  | "repl" => some .repl
  | _ => none

/-- A command with the file that it needs, and no other. -/
def Verb.command (verb : Verb) (file : Option String) : Except UsageError Command :=
  match verb, file with
  | .lex, some file => .ok (.lex file)
  | .check, some file => .ok (.check file)
  | .repl, _ => .ok .repl
  | _, none => .error .missingFile

/-- What follows the command: its file and more flags. There is no version of a command. -/
def parseAfter (outer : Flags) (verb : Verb) (file : Option String) (inner : Flags) :
    List Mark → Except UsageError Request
  | [] => (verb.command file).map (.run (outer.options inner))
  | .flag (.error error) :: _ => .error error
  | .flag (.ok .verbose) :: rest =>
    parseAfter outer verb file { inner with verbose := inner.verbose + 1 } rest
  | .flag (.ok .noColor) :: rest =>
    if inner.noColor then .error (.repeatedFlag "--no-color")
    else parseAfter outer verb file { inner with noColor := true } rest
  | .flag (.ok .version) :: _ => .error (.unknownFlag "--version")
  | .flag (.ok .help) :: _ => .ok .help
  | .word text :: rest =>
    if verb = .repl ∨ file.isSome then .error (.extraWord text)
    else if text = "" then .error .emptyFile
    else parseAfter outer verb (some text) inner rest

/-- What follows `help`: nothing, or one name of a command. -/
def parseHelp : List String → Except UsageError Request
  | [] => .ok .help
  | name :: rest =>
    if name ≠ "help" ∧ Verb.ofName? name = none then .error (.unknownCommand name)
    else match rest with
      | [] => .ok .help
      | word :: _ => .error (.unknownCommand word)

/-- The command, and what follows it. Behind `--` no word is a command. -/
def parseCommand (outer : Flags) : List String → Except UsageError Request
  | [] | ["--"] => .error .missingCommand
  | "--" :: word :: _ => .error (.extraWord word)
  | word :: rest =>
    if word = "help" then parseHelp rest
    else match Verb.ofName? word with
      | some verb => parseAfter outer verb none {} (marks rest)
      | none => .error (.unknownCommand word)

/-- The flags before the command, and then the command among the other arguments. -/
def parseBefore (outer : Flags) (others : List String) :
    List (Except UsageError Flag) → Except UsageError Request
  | [] => parseCommand outer others
  | .error error :: _ => .error error
  | .ok .verbose :: rest => parseBefore { outer with verbose := outer.verbose + 1 } others rest
  | .ok .noColor :: rest =>
    if outer.noColor then .error (.repeatedFlag "--no-color")
    else parseBefore { outer with noColor := true } others rest
  | .ok .version :: _ => .ok .version
  | .ok .help :: _ => .ok .help

/-- **The request that the arguments make**, or the first mistake in them. -/
def parse (arguments : List String) : Except UsageError Request :=
  let (flags, others) := arguments.span fun argument => !(flagsOf argument).isEmpty
  parseBefore {} others (flags.flatMap flagsOf)

end Lox.CommandLine
