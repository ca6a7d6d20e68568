import Lox.CommandLine.Program

/-!
# Entry point

Reads the file that the arguments name, or the standard input line by line, and writes what comes
of it.
-/

namespace Lox.CommandLine

/-- The reason of an error of the system, whose code may come negated. -/
def ReadFailure.ofError : IO.Error → ReadFailure
  | .noFileOrDirectory .. => .notFound
  | .inappropriateType _ code _ =>
    if code = 21 ∨ code = -21 then .isDirectory else .notDirectory
  | .invalidArgument _ code _ =>
    if code = 36 ∨ code = -36 then .nameTooLong else .other "Invalid argument (os error 22)"
  | error => .other (toString error)

/-- The bytes of a file. -/
def readFile (file : String) : IO (Except ReadFailure ByteArray) := do
  try return .ok (← IO.FS.readBinFile file)
  catch error => return .error (.ofError error)

/-- The bytes of the standard input up to a line feed or its end. -/
partial def readLine (input : IO.FS.Stream) (line : ByteArray) : IO ByteArray := do
  let next ← input.read 1
  if next.isEmpty then return line
  else if next.toList = [lineFeed] then return line ++ next
  else readLine input (line ++ next)

/-- Both streams after some chunks. -/
def write (chunks : List Chunk) (verbosity : Nat) : IO Unit := do
  let outcome : Outcome := { chunks, exit := .success }
  IO.print outcome.stdout
  (← IO.getStdout).flush
  IO.eprint (outcome.stderr verbosity)

/-- A session at the prompt. -/
partial def converse (input : IO.FS.Stream) (verbosity : Nat) : IO Exit := do
  write [prompt] verbosity
  match inputLines (← readLine input .empty).toList with
  | [] =>
    write [.out "\n"] verbosity
    return .success
  | line :: _ =>
    match answerLine line with
    | .error failure =>
      write [inputFailed failure] verbosity
      return .inputError
    | .ok answer =>
      write answer verbosity
      converse input verbosity

/-- The program on the system's files and streams. -/
def run (arguments : List String) : IO Exit := do
  match parse arguments with
  | .ok (.run options .repl) => converse (← IO.getStdin) options.verbosity
  | request =>
    let bytes ← match request with
      | .ok (.run _ (.lex file)) => readFile file
      | .ok (.run _ (.check file)) => readFile file
      | _ => pure (.ok .empty)
    let console := program arguments (fun _ => bytes) .empty
    IO.print console.stdout
    IO.eprint console.stderr
    return console.exit

end Lox.CommandLine

/-- Runs the program and ends with its exit code. -/
def main (arguments : List String) : IO UInt32 := do
  return (← Lox.CommandLine.run arguments).code.toUInt32
