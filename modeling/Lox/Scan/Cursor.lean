import Lox.Scan.Event
import Lox.Text.Slice

/-!
# A scan by byte offsets

The segments of a source say what a scan finds, but not how it moves. A cursor knows the offsets, in
bytes, at which the lexeme begins and the next character stands, and reads the source only through
slices. It moves by one character at a time, in the loops over lexemes, comments, strings, numbers
and words; a point says in which of them it is. A slice that does not exist breaks the scan.

## Main definitions

* `Point`: the places in the loops
* `Cursor`: a scan on its way, with the tokens so far, the state of the listener and the log
* `Cursor.peek?`, `Cursor.peekNext?`, `Cursor.lexeme?`: what is read through slices
* `Cursor.advance?`, `Cursor.accept?`: the moves over a character
* `Cursor.begin?`: what the first character of a lexeme leads to
* `Cursor.move?`, `Cursor.step`: a step of the scan, if all of its slices exist, and in any case
-/

namespace Lox

/-- A place in the loops of a scan. -/
inductive Point
  /-- Between two lexemes. -/
  | between
  /-- Before the first character of a lexeme. -/
  | opening
  /-- Behind the first character of a lexeme. -/
  | first (c : Char)
  /-- In a comment. -/
  | comment
  /-- In a string whose quotation mark stands on a line. -/
  | string (opened : UInt32)
  /-- Behind the quotation mark that closes a string. -/
  | closed (opened : UInt32)
  /-- In the digits of a number. -/
  | whole
  /-- In the digits behind the point of a number. -/
  | fraction
  /-- In a word. -/
  | word
  /-- Behind the last lexeme. -/
  | finished
  /-- Where a slice was read that does not exist. -/
  | broken
  deriving DecidableEq

/-- A scan on its way. -/
structure Cursor (σ : Type) where
  point : Point := .between
  /-- The offset at which the lexeme begins. -/
  start : Nat := 0
  /-- The offset of the next character. -/
  current : Nat := 0
  line : UInt32 := 1
  /-- The tokens so far. -/
  tokens : List Token := []
  /-- The state of the listener. -/
  heard : σ
  /-- The number of the faults so far. -/
  errors : Nat := 0
  /-- The events so far. -/
  log : List Event

namespace Cursor

variable {σ : Type}

/-- The scan of a text before its first step. -/
def initial (text : List Char) (state : σ) : Cursor σ :=
  { heard := state, log := [.started (Text.byteLength text)] }

/-! ## Reading -/

section

variable (text : List Char) (s : Cursor σ)

/-- The text from the next character on. -/
def rest? : Option (List Char) := Text.dropBytes? s.current text

/-- The next character, if the text goes on. -/
def peek? : Option (Option Char) := (s.rest? text).map (·.head?)

/-- The character behind the next one, if the text goes on. -/
def peekNext? : Option (Option Char) := (s.rest? text).map (·[1]?)

/-- The text of the lexeme up to the next character. -/
def lexeme? : Option (List Char) := Text.slice? s.start s.current text

end

/-! ## Moving -/

/-- The cursor behind a character. -/
def forward (c : Char) (s : Cursor σ) : Cursor σ := { s with current := s.current + c.utf8Size }

/-- The cursor at a point. -/
def goto (p : Point) (s : Cursor σ) : Cursor σ := { s with point := p }

/-- A lexeme begins at the next character. -/
def opened (s : Cursor σ) : Cursor σ := { s with start := s.current, point := .opening }

/-- A line feed is passed. -/
def nextLine (s : Cursor σ) : Cursor σ := { s with line := s.line + 1 }

/-- One more token. -/
def push (token : Token) (s : Cursor σ) : Cursor σ :=
  { s with tokens := s.tokens ++ [token], log := s.log ++ [.token token] }

/-- The end of the source. It is a token without an event of its own. -/
def finish (s : Cursor σ) : Cursor σ :=
  let tokens := s.tokens ++ [Token.eof s.line]
  { s with tokens, log := s.log ++ [.finished tokens.length s.errors s.line], point := .finished }

section

variable (text : List Char)

/-- The next character, and the cursor behind it. -/
def advance? (s : Cursor σ) : Option (Option Char × Cursor σ) :=
  (s.peek? text).map fun
    | none => (none, s)
    | some c => (some c, s.forward c)

/-- Whether the next character is the expected one, and the cursor behind it if it is. -/
def accept? (expected : Char) (s : Cursor σ) : Option (Bool × Cursor σ) :=
  (s.peek? text).map fun c =>
    if c = some expected then (true, s.forward expected) else (false, s)

/-- A token of the lexeme that ends before the next character. -/
def emit? (kind : Kind) (literal : Option Literal) (line : UInt32) (s : Cursor σ) :
    Option (Cursor σ) :=
  (s.lexeme? text).map fun chars =>
    (s.push { kind, lexeme := String.ofList chars, literal, line }).goto .between

end

section

variable (text : List Char) (listener : Listener σ)

/-- One more fault. -/
def complain (fault : Fault) (s : Cursor σ) : Cursor σ :=
  { s with
    errors := s.errors + 1
    heard := listener.full fault.diagnostic s.heard
    log := s.log ++ [.fault fault] }

/-! ## Steps -/

/-- What the first character of a lexeme leads to: a token, a fault, nothing, or a loop. -/
def begin? (c : Char) (s : Cursor σ) : Option (Cursor σ) :=
  match Kind.ofMark? c, Kind.ofOperator? c with
  | some kind, _ => s.emit? text kind none s.line
  | none, some (alone, joined) => do
    let (isJoined, s) ← s.accept? text '='
    s.emit? text (if isJoined then joined else alone) none s.line
  | none, none =>
    if c = '/' then do
      let (isComment, s) ← s.accept? text '/'
      if isComment then some (s.goto .comment) else s.emit? text .slash none s.line
    else if c = ' ' ∨ c = '\r' ∨ c = '\t' then some (s.goto .between)
    else if c = '\n' then some (s.nextLine.goto .between)
    else if c = '"' then some (s.goto (.string s.line))
    else if c.isDigit then some (s.goto .whole)
    else if isWordStart c then some (s.goto .word)
    else some ((s.complain listener ⟨s.line, .unexpected c⟩).goto .between)

/-- A round of a loop over the characters that satisfy `p`, and what is done behind them. -/
def while? (p : Char → Bool) (behind : Cursor σ → Option (Cursor σ)) (s : Cursor σ) :
    Option (Cursor σ) := do
  if (← s.peek? text).any p then (s.advance? text).map Prod.snd else behind s

/-- A round of the loop over a string, which counts the lines. -/
def string? (opened : UInt32) (s : Cursor σ) : Option (Cursor σ) := do
  match ← s.peek? text with
  | none => some ((s.complain listener ⟨opened, .unterminated⟩).goto .between)
  | some c =>
    if c = '"' then (s.advance? text).map fun (_, s) => s.goto (.closed opened)
    else ((if c = '\n' then s.nextLine else s).advance? text).map Prod.snd

/-- The end of a string: its value is what stands between the quotation marks. -/
def emitString? (opened : UInt32) (s : Cursor σ) : Option (Cursor σ) := do
  let body ← Text.slice? (s.start + 1) (s.current - 1) text
  s.emit? text .string (some (.string (String.ofList body))) opened

/-- The end of a number: its token, or a fault if it cannot be read. -/
def emitNumber? (s : Cursor σ) : Option (Cursor σ) := do
  let chars ← s.lexeme? text
  match Literal.readNumber? chars with
  | some value => s.emit? text .number (some value) s.line
  | none =>
    let fault : Fault := ⟨s.line, .invalidNumber (String.ofList chars)⟩
    some ((s.complain listener fault).goto .between)

/-- Behind the first digits of a number: a point belongs to it only if a digit follows. -/
def point? (s : Cursor σ) : Option (Cursor σ) := do
  if (← s.peek? text) = some '.' ∧ (← s.peekNext? text).any Char.isDigit then
    (s.advance? text).map fun (_, s) => s.goto .fraction
  else s.emitNumber? text listener

/-- The end of a word: its token, by the table of reserved words. -/
def emitWord? (s : Cursor σ) : Option (Cursor σ) := do
  let chars ← s.lexeme? text
  s.emit? text (Segment.wordKind chars) none s.line

/-- A step, if all slices exist that it reads. -/
def move? (s : Cursor σ) : Option (Cursor σ) :=
  match s.point with
  | .between => some (if s.current < Text.byteLength text then s.opened else s.finish)
  | .opening => do
    match ← s.advance? text with
    | (none, s) => some (s.goto .between)
    | (some c, s) => some (s.goto (.first c))
  | .first c => s.begin? text listener c
  | .comment => s.while? text (· ≠ '\n') fun s => some (s.goto .between)
  | .string opened => s.string? text listener opened
  | .closed opened => s.emitString? text opened
  | .whole => s.while? text Char.isDigit (point? text listener)
  | .fraction => s.while? text Char.isDigit (emitNumber? text listener)
  | .word => s.while? text isWordPart (emitWord? text)
  | .finished | .broken => some s

/-- **A step of a scan.** A scan that has finished takes none, and a slice that does not exist
breaks it. -/
def step (s : Cursor σ) : Option (Cursor σ) :=
  if s.point = .finished ∨ s.point = .broken then none
  else some ((s.move? text listener).getD (s.goto .broken))

end

end Cursor

end Lox
