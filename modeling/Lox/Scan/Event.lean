import Lox.Scan.Basic
import Lox.Text.Terminal

/-!
# Events of a scan

A scan tells what it does as a sequence of events: its beginning, every token and fault in the
order of the source, and its end with the counts. An event has a level, a message and named fields,
and is written to a log as one line.

## Main definitions

* `Level`: the levels of a log, from the least to the most detailed
* `Event`, `Event.level`, `Event.message`, `Event.fields`: the events of a scan
* `events source`: the events of the scan of a source
* `Entry`: a line of a log
-/

namespace Lox

/-- The levels of a log. -/
inductive Level
  | info
  | debug
  | trace
  deriving DecidableEq

namespace Level

/-- The name of a level in a log. -/
def name : Level → String
  | info => "INFO"
  | debug => "DEBUG"
  | trace => "TRACE"

/-- The verbosity from which on a level is logged. -/
def threshold : Level → Nat
  | info => 1
  | debug => 2
  | trace => 3

end Level

/-- The value of a field: a number, a text, or a text between quotation marks. -/
inductive Field
  | count (n : Nat)
  | plain (text : String)
  | quoted (text : String)
  deriving DecidableEq

/-- A field as it is written. -/
def Field.text : Field → String
  | count n => toString n
  | plain text => text
  | quoted text => Text.quoteText text

/-- What a scan does. -/
inductive Event
  | started (bytes : Nat)
  | token (token : Token)
  | fault (fault : Fault)
  | finished (tokens errors : Nat) (lines : UInt32)
  deriving DecidableEq

namespace Event

/-- Tokens are traced; all else is for debugging. -/
def level : Event → Level
  | token _ => .trace
  | started _ | fault _ | finished .. => .debug

/-- What an event says. -/
def message : Event → String
  | started _ => "scanning source"
  | token _ => "token"
  | fault _ => "scan error"
  | finished .. => "scan finished"

/-- The fields, by their names. -/
def fields : Event → List (String × Field)
  | started bytes => [("bytes", .count bytes)]
  | token t =>
    [("kind", .plain t.kind.name), ("lexeme", .quoted t.lexeme), ("line", .count t.line.toNat)]
  | fault f => [("line", .count f.line.toNat), ("error", .plain f.message)]
  | finished tokens errors lines =>
    [("tokens", .count tokens), ("errors", .count errors), ("lines", .count lines.toNat)]

end Event

/-- The event of a finding. -/
def Finding.event : Finding → Event
  | token t => .token t
  | fault f => .fault f

/-- **The events of a scan.** The end of the source is counted as a token and has no event. -/
def events (source : String) : List Event :=
  .started source.utf8ByteSize :: (findings source).map Finding.event ++
    [.finished (tokens source).length (faults source).length (lastLine source)]

/-- A line of a log. -/
structure Entry where
  level : Level
  /-- The part of the program that speaks. -/
  target : String
  message : String
  fields : List (String × Field) := []
  deriving DecidableEq

/-- The level, the part of the program, the message and the fields. The message may hold text from
outside, which must not steer the terminal. -/
def Entry.text (e : Entry) : String :=
  Text.padStart 5 e.level.name ++ " " ++ e.target ++ ": " ++
    String.ofList (Text.disarm e.message.toList) ++
    String.join (e.fields.map fun (name, value) => " " ++ name ++ "=" ++ value.text)

/-- An event as a line of a log. -/
def Event.entry (e : Event) : Entry :=
  { level := e.level, target := "lox_lexer::scanner", message := e.message, fields := e.fields }

end Lox
