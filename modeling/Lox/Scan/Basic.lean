import Lox.Diagnostic.Report
import Lox.Scan.Fault
import Lox.Segment
import Lox.Token.Basic

/-!
# Scanning

A scan goes through the segments of a source and finds a token or a fault in each, blanks and
comments excepted. Lines are counted modulo `2 ^ 32`; what spans lines is found at the first of
them. Tokens are collected, and faults are told to a listener.

## Main definitions

* `Segment.lines`: the segments of a source with the lines at which they begin
* `findings source`: the tokens and faults of a source, in order
* `scanWith listener source state`: the tokens of a source, and the state of the listener
* `scan source`: the tokens of a source, and the report of its faults

## Main results

* `scanWith_eq`: the tokens do not depend on the listener, which hears the faults of the source
-/

namespace Lox

/-- The line behind a text that begins at a line. -/
def lineAfter (line : UInt32) (text : List Char) : UInt32 :=
  line + UInt32.ofNat (text.count '\n')

/-- The segments with the lines at which they begin. -/
def Segment.lines (line : UInt32) : List Segment → List (UInt32 × Segment)
  | [] => []
  | s :: rest => (line, s) :: Segment.lines (lineAfter line s.text) rest

/-- What a scan finds in a segment. -/
inductive Finding
  | token (token : Token)
  | fault (fault : Fault)
  deriving DecidableEq

namespace Finding

/-- The token that was found. -/
def token? : Finding → Option Token
  | token t => some t
  | fault _ => none

/-- The fault that was found. -/
def fault? : Finding → Option Fault
  | token _ => none
  | fault f => some f

end Finding

/-- The token or fault of a segment: a lexeme with the value that it denotes, or what is wrong with
it. Blanks and comments have none. -/
def Segment.finding? (line : UInt32) : Segment → Option Finding
  | space _ | comment _ => none
  | lexeme kind chars =>
    let token (literal : Option Literal) : Finding :=
      .token { kind, lexeme := String.ofList chars, literal, line }
    match kind with
    | .number =>
      match Literal.readNumber? chars with
      | some value => some (token (some value))
      | none => some (.fault ⟨line, .invalidNumber (String.ofList chars)⟩)
    | .string => some (token (some (Literal.readString chars)))
    | _ => some (token none)
  | stray c => some (.fault ⟨line, .unexpected c⟩)
  | unclosed _ => some (.fault ⟨line, .unterminated⟩)

/-- The tokens and faults among segments that begin at a line. -/
def findingsFrom (line : UInt32) (segments : List Segment) : List Finding :=
  (Segment.lines line segments).filterMap fun (l, s) => s.finding? l

/-- **The tokens and faults of a source**, in order. -/
def findings (source : String) : List Finding :=
  findingsFrom 1 (Segment.cut source.toList)

/-- The line at which a source ends. -/
def lastLine (source : String) : UInt32 :=
  (Segment.cut source.toList).foldl (fun line s => lineAfter line s.text) 1

/-- The tokens of a source; the last one marks its end. -/
def tokens (source : String) : List Token :=
  (findings source).filterMap Finding.token? ++ [Token.eof (lastLine source)]

/-- The faults of a source. -/
def faults (source : String) : List Fault :=
  (findings source).filterMap Finding.fault?

/-! ## Listeners -/

section

variable {σ : Type}

/-- A scan on its way: the tokens so far, the last one first, and the state of the listener. -/
def hear (listener : Listener σ) (progress : List Token × σ) : Finding → List Token × σ
  | .token t => (t :: progress.1, progress.2)
  | .fault f => (progress.1, listener.full f.diagnostic progress.2)

/-- **A scan with a listener**: the tokens of the source, and the state after its faults. -/
def scanWith (listener : Listener σ) (source : String) (state : σ) : List Token × σ :=
  let (rev, state) := (findings source).foldl (hear listener) ([], state)
  (rev.reverse ++ [Token.eof (lastLine source)], state)

theorem foldl_hear (listener : Listener σ) (fs : List Finding) (rev : List Token) (state : σ) :
    fs.foldl (hear listener) (rev, state) =
      ((fs.filterMap Finding.token?).reverse ++ rev,
        listener.hearAll ((fs.filterMap Finding.fault?).map Fault.diagnostic) state) := by
  induction fs generalizing rev state with
  | nil => rfl
  | cons f fs ih =>
    cases f <;>
      simp [hear, ih, List.filterMap_cons, Finding.token?, Finding.fault?, Listener.hearAll]

/-- **The tokens do not depend on the listener**, which hears the faults of the source. -/
theorem scanWith_eq (listener : Listener σ) (source : String) (state : σ) :
    scanWith listener source state =
      (tokens source, listener.hearAll ((faults source).map Fault.diagnostic) state) := by
  simp [scanWith, foldl_hear, tokens, faults]

end

/-! ## Scans -/

/-- The outcome of a scan. -/
structure Scan where
  tokens : List Token
  report : Report

/-- A scan with a fresh report. -/
def scan (source : String) : Scan :=
  let (tokens, report) := scanWith Report.listener source Report.empty
  { tokens, report }

@[simp] theorem scan_tokens (source : String) : (scan source).tokens = tokens source := by
  simp [scan, scanWith_eq]

@[simp] theorem scan_report (source : String) :
    (scan source).report.toList = (faults source).map Fault.diagnostic := by
  simp [scan, scanWith_eq, Report.hearAll_toList]

namespace Scan

/-- The kinds of the tokens. -/
def kinds (s : Scan) : List Kind := s.tokens.map (·.kind)

/-- The lexemes of the tokens. -/
def lexemes (s : Scan) : List String := s.tokens.map (·.lexeme)

/-- The lines and messages of the diagnostics. -/
def errors (s : Scan) : List (UInt32 × String) := s.report.toList.map fun d => (d.line, d.message)

/-- The lexemes one behind the other. -/
def joinedLexemes (s : Scan) : String := String.join s.lexemes

end Scan

end Lox
