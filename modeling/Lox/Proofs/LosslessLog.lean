import Lox.Proofs.Flags
import Lox.Proofs.LogReading
import Lox.Proofs.Prompt

/-!
# Nothing is lost in the log of a run

If everything is logged, the stream for errors of a command holds the log of each source that the
command scans, one behind the other, with other lines before them, between them and behind them.
Each event has a line of its own among these lines. What stands behind a log does not begin like a
log, and at the prompt it is told by the log itself. So two runs that leave the same text have
logged the same events.

## Main definitions

* `IsWhole`, `linesOf`: a text of whole lines, and these lines
* `logOf`: the log of a source as it is written
* `Command.scanned`: the sources that a command scans
* `SameLog`: two sources with the same events
* `LosesNothing`: a command in whose log nothing is lost

## Main results

* `logOf_append_inj`: a log tells its events, and where it ends
* `logsWith_append_inj`: so do several logs, with something behind each
* `program_losesNothing`: nothing is lost in the log of a command
-/

namespace Lox.CommandLine

open Text (pieces unquote HasNoControl)

/-! ## Whole lines -/

/-- A text of whole lines. -/
def IsWhole (text : String) : Prop := text = "" ∨ ∃ body, text = body ++ "\n"

/-- The lines of a text of whole lines. -/
def linesOf (text : String) : List (List Char) := (pieces '\n' text.toList).dropLast

theorem IsWhole.append {s t : String} (hs : IsWhole s) (ht : IsWhole t) : IsWhole (s ++ t) := by
  rcases ht with rfl | ⟨body, rfl⟩
  · rwa [String.append_empty]
  · exact .inr ⟨s ++ body, String.append_assoc.symm⟩

theorem isWhole_join {texts : List String} (h : ∀ text ∈ texts, IsWhole text) :
    IsWhole (String.join texts) := by
  induction texts with
  | nil => exact .inl rfl
  | cons text texts ih =>
    rw [String.join_cons]
    exact (h text List.mem_cons_self).append (ih fun t ht => h t (List.mem_cons_of_mem text ht))

/-- **The lines of a text** stand before those of what is behind it. -/
theorem IsWhole.pieces_append {text : String} (h : IsWhole text) (rest : List Char) :
    pieces '\n' (text.toList ++ rest) = linesOf text ++ pieces '\n' rest := by
  rcases h with rfl | ⟨body, rfl⟩
  · rfl
  · have hlines : linesOf (body ++ "\n") = pieces '\n' body.toList := by
      have hend : (body ++ "\n").toList = body.toList ++ '\n' :: [] := by simp
      rw [linesOf, hend, Text.pieces_append_sep]
      exact List.dropLast_concat
    have hsplit : (body ++ "\n").toList ++ rest = body.toList ++ '\n' :: rest := by simp
    rw [hlines, hsplit, Text.pieces_append_sep]

/-! ## The log of a source -/

/-- **The log of a source** as it is written. -/
def logOf (source : String) : String := textOf Chunk.written (scanLog source)

theorem toList_logOf (source : String) :
    (logOf source).toList = (events source).flatMap fun e => e.line ++ ['\n'] := by
  simp [logOf, scanLog, textOf_map, Chunk.written, Event.line, String.toList_join,
    List.flatMap_map]

theorem lineFeed_notMem_line (e : Event) : '\n' ∉ e.line := by
  intro hmem
  cases e.hasNoControl_text '\n' hmem

/-- **Each event has a line of its own**, whatever is behind the events. -/
theorem pieces_flatMap_line (es : List Event) (rest : List Char) :
    pieces '\n' ((es.flatMap fun e => e.line ++ ['\n']) ++ rest) =
      es.map Event.line ++ pieces '\n' rest := by
  induction es with
  | nil => rfl
  | cons e es ih =>
    rw [List.flatMap_cons, List.append_assoc, List.append_assoc, List.singleton_append,
      Text.pieces_append_cons (lineFeed_notMem_line e), ih, List.map_cons, List.cons_append]

theorem pieces_logOf (source : String) (rest : List Char) :
    pieces '\n' ((logOf source).toList ++ rest) =
      (events source).map Event.line ++ pieces '\n' rest := by
  rw [toList_logOf, pieces_flatMap_line]

/-- **Different events are written differently**, also if they are not those of a scan. -/
theorem flatMap_line_inj {es fs : List Event}
    (h : (es.flatMap fun e => e.line ++ ['\n']) = fs.flatMap fun e => e.line ++ ['\n']) :
    es.map Event.entry = fs.map Event.entry := by
  have hes := pieces_flatMap_line es []
  have hfs := pieces_flatMap_line fs []
  rw [h, hfs] at hes
  have hlines : fs.map Event.line = es.map Event.line := List.append_cancel_right hes
  have hread (es : List Event) : (es.map Event.line).map readEntry =
      (es.map Event.entry).map some := by
    simp only [List.map_map, Function.comp_def, readEntry_line]
  have hentries := congrArg (List.map readEntry) hlines
  rw [hread, hread] at hentries
  exact List.map_injective_iff.mpr (Option.some_injective Entry) hentries.symm

/-- A log begins with its level. -/
theorem head?_logOf (source : String) : (logOf source).toList.head? = some 'D' := by
  have hhead : ∀ rest, (Form.started.head ++ rest).head? = some 'D' := fun _ => rfl
  rw [toList_logOf, events, List.cons_append, List.flatMap_cons, Event.line_eq, List.append_assoc,
    List.append_assoc]
  exact hhead _

theorem logOf_append_ne {source : String} {rest tail : List Char} (h : Stops (· = 'D') tail) :
    (logOf source).toList ++ rest ≠ tail := by
  rintro rfl
  have hhead : 'D' ∈ ((logOf source).toList ++ rest).head? := by
    rw [List.head?_append, head?_logOf]
    rfl
  exact absurd (h 'D' hhead) (by decide)

/-- **A log tells its events**, and where it ends. -/
theorem logOf_append_inj {source other : String} {rest rest' : List Char}
    (h : (logOf source).toList ++ rest = (logOf other).toList ++ rest') :
    (events source).map Event.entry = (events other).map Event.entry ∧ rest = rest' := by
  have hread := congrArg (fun text => readLog (pieces '\n' text)) h
  simp only [pieces_logOf, readLog_events, Option.some.injEq, Prod.mk.injEq] at hread
  obtain ⟨hentries, -⟩ := hread
  have hlog (source : String) : (logOf source).toList =
      ((events source).map Event.entry).flatMap fun e => e.text.toList ++ ['\n'] := by
    rw [toList_logOf, List.flatMap_map]
    rfl
  rw [hlog, hlog, hentries] at h
  exact ⟨hentries, List.append_cancel_left h⟩

/-- **Two sources with the same events**: the same entries stand in their logs, and these are about
the same tokens and the same errors. -/
structure SameLog (source other : String) : Prop where
  entries : (events source).map Event.entry = (events other).map Event.entry
  tokens : (scan source).tokens = (scan other).tokens
  errors : (scan source).errors = (scan other).errors

theorem sameLog_of_entries_eq {source other : String}
    (h : (events source).map Event.entry = (events other).map Event.entry) :
    SameLog source other :=
  ⟨h, (scan_eq_of_entries_eq h).1, (scan_eq_of_entries_eq h).2⟩

/-! ## Several logs -/

/-- **The logs of some sources**, with something behind each. -/
def logsWith (behind : String → String) (sources : List String) : String :=
  String.join (sources.map fun source => logOf source ++ behind source)

theorem toList_logsWith_cons (behind : String → String) (source : String) (sources : List String)
    (rest : List Char) : (logsWith behind (source :: sources)).toList ++ rest =
      (logOf source).toList ++
        ((behind source).toList ++ ((logsWith behind sources).toList ++ rest)) := by
  simp [logsWith]

/-- **Each event of several logs has a line of its own**, if whole lines stand behind the logs. -/
theorem pieces_logsWith {behind : String → String} (h : ∀ source, IsWhole (behind source))
    (sources : List String) (rest : List Char) :
    pieces '\n' ((logsWith behind sources).toList ++ rest) =
      (sources.flatMap fun source => (events source).map Event.line ++ linesOf (behind source)) ++
        pieces '\n' rest := by
  induction sources with
  | nil => rfl
  | cons source sources ih =>
    rw [toList_logsWith_cons, pieces_logOf, (h source).pieces_append, ih, List.flatMap_cons,
      List.append_assoc, List.append_assoc]

/-- **Several logs tell all events**, if what is behind each is told by its log, and what is behind
them all does not begin like a log. -/
theorem logsWith_append_inj {behind : String → String}
    (hbehind : ∀ {source other}, SameLog source other → behind source = behind other)
    {sources others : List String} {tail tail' : List Char} (ht : Stops (· = 'D') tail)
    (ht' : Stops (· = 'D') tail')
    (h : (logsWith behind sources).toList ++ tail = (logsWith behind others).toList ++ tail') :
    List.Forall₂ SameLog sources others := by
  -- each log tells where it ends, so that the logs can be compared one by one
  induction sources generalizing others with
  | nil =>
    cases others with
    | nil => exact .nil
    | cons other others =>
      rw [toList_logsWith_cons] at h
      exact absurd h.symm (logOf_append_ne ht)
  | cons source sources ih =>
    rw [toList_logsWith_cons] at h
    cases others with
    | nil => exact absurd h (logOf_append_ne ht')
    | cons other others =>
      rw [toList_logsWith_cons] at h
      obtain ⟨hentries, hrest⟩ := logOf_append_inj h
      have hsame := sameLog_of_entries_eq hentries
      rw [hbehind hsame, List.append_cancel_left_eq] at hrest
      exact .cons hsame (ih hrest)

/-! ## Sources of a command -/

/-- The texts up to the first that cannot be read. -/
def readable : List (Except ReadFailure String) → List String
  | [] | .error _ :: _ => []
  | .ok text :: rest => text :: readable rest

/-- **The sources that a command scans**: its file, or the lines of its input. -/
def Command.scanned (command : Command) (read : String → Except ReadFailure ByteArray)
    (input : ByteArray) : List String :=
  match command with
  | .lex file | .check file => readable [(read file).bind decode]
  | .repl => readable ((inputLines input.toList).map fun line => decode ⟨line.toArray⟩)

theorem readable_ok (text : String) : readable [.ok text] = [text] := rfl

theorem readable_map_ok (texts : List String) (rest : List (Except ReadFailure String)) :
    readable (texts.map .ok ++ rest) = texts ++ readable rest := by
  induction texts with
  | nil => rfl
  | cons text texts ih => rw [List.map_cons, List.cons_append, readable, ih, List.cons_append]

/-! ## Commands on a file -/

/-- A command on a source that writes its log first. -/
def LogsFirst (command : String → Outcome) : Prop :=
  ∀ source, ∃ rest, textOf Chunk.written (command source).chunks = logOf source ++ rest

theorem logsFirst_lexSource (file : String) (coloured : Bool) :
    LogsFirst (lexSource file · coloured) := by
  intro source
  by_cases h : (scan source).report.toList = []
  · simp only [lexSource_of_clean h, textOf_append]
    exact ⟨_, rfl⟩
  · simp only [lexSource_of_faulty h, textOf_append, String.append_assoc]
    exact ⟨_, rfl⟩

theorem logsFirst_checkSource (file : String) (coloured : Bool) :
    LogsFirst (checkSource file · coloured) := by
  intro source
  by_cases h : (scan source).report.toList = []
  · simp only [checkSource_of_clean h, textOf_append]
    exact ⟨_, rfl⟩
  · simp only [checkSource_of_faulty h, textOf_append]
    exact ⟨_, rfl⟩

section

variable {command : String → Outcome} (hcommand : LogsFirst command) (activity file : String)

include hcommand

/-- **A command on a file** writes its announcement, the log of the source if there is one, and
something that does not begin like a log if there is none. -/
theorem exists_written_onFile (bytes : Except ReadFailure ByteArray) : ∃ rest,
    textOf Chunk.written (onFile activity file bytes command).chunks =
      (announce activity file).written ++
        (logsWith (fun _ => "") (readable [bytes.bind decode]) ++ rest) ∧
      (readable [bytes.bind decode] = [] → Stops (· = 'D') rest.toList) := by
  rw [onFile]
  cases bytes.bind decode with
  | ok source =>
    obtain ⟨rest, hrest⟩ := hcommand source
    refine ⟨rest, ?_, fun hnone => absurd hnone (List.cons_ne_nil _ _)⟩
    rw [textOf_cons, hrest]
    simp [readable, logsWith]
  | error failure =>
    refine ⟨textOf Chunk.written (readFailed file failure).chunks, ?_, fun _ => ?_⟩
    · rw [textOf_cons]
      simp [readable, logsWith]
    · simp [readFailed, Chunk.written, Stops]

end

/-- **The log of a file tells its events**, whatever is behind it. -/
theorem file_inj {a b : Except ReadFailure String} {rest rest' : List Char}
    (ha : readable [a] = [] → Stops (· = 'D') rest)
    (hb : readable [b] = [] → Stops (· = 'D') rest')
    (h : (logsWith (fun _ => "") (readable [a])).toList ++ rest =
      (logsWith (fun _ => "") (readable [b])).toList ++ rest') :
    List.Forall₂ SameLog (readable [a]) (readable [b]) := by
  cases a with
  | error failure =>
    cases b with
    | error failure' => exact .nil
    | ok other =>
      rw [readable_ok, toList_logsWith_cons] at h
      exact absurd h.symm (logOf_append_ne (ha rfl))
  | ok source =>
    rw [readable_ok, toList_logsWith_cons] at h
    cases b with
    | error failure => exact absurd h (logOf_append_ne (hb rfl))
    | ok other =>
      rw [readable_ok, toList_logsWith_cons] at h
      exact .cons (sameLog_of_entries_eq (logOf_append_inj h).1) .nil

/-! ## Sessions -/

theorem isWhole_complaints (text : String) : IsWhole (complaints text) := by
  apply isWhole_join
  intro line hline
  obtain ⟨d, -, rfl⟩ := List.mem_map.mp hline
  exact .inr ⟨_, rfl⟩

/-- Complaints are told by the errors. -/
theorem complaints_eq_of_sameLog {text other : String} (h : SameLog text other) :
    complaints text = complaints other := by
  have hcomplaints (text : String) : complaints text =
      String.join ((scan text).errors.map fun error => "[line 1] Error: " ++ error.2 ++ "\n") := by
    rw [complaints, Scan.errors, List.map_map]
    rfl
  rw [hcomplaints, hcomplaints, h.errors]

section

variable {arguments : List String} {v : Nat} {coloured : Bool} (hv : 3 ≤ v)

include hv

/-- A session that has answered its texts has written their logs and complaints. -/
theorem stderr_replLines {texts : List String} (h : ∀ text ∈ texts, '\n' ∉ text.toList) :
    ((replLines (texts.map bytesOf)).console v).stderr = logsWith complaints texts := by
  have hlogged (text : String) : logged v text = logOf text :=
    textOf_stderr_of_le hv (scanLog text)
  have hstderr := (completes_replLines h v).stderr
  simp only [hlogged] at hstderr
  exact hstderr

/-- **A session** writes the logs and the complaints of its texts, and something that does not begin
like a log. -/
theorem exists_stderr_repl (hparse : parse arguments = .ok (.run ⟨v, coloured⟩ .repl))
    (read : String → Except ReadFailure ByteArray) (input : ByteArray) : ∃ tail,
    (program arguments read input).stderr =
      logsWith complaints (Command.repl.scanned read input) ++ tail ∧
      Stops (· = 'D') tail.toList := by
  obtain ⟨lines, h⟩ : ∃ lines, IsReadAs input lines := exists_hasLines _ _ _
  have hdecode (texts : List String) :
      (texts.map bytesOf).map (fun line => decode ⟨line.toArray⟩) = texts.map .ok := by
    rw [List.map_map]
    exact List.map_congr_left fun text _ => decode_bytesOf text
  rw [program_eq_replLines hparse h, Command.scanned, h.inputLines_eq]
  rcases exists_texts lines with ⟨texts, rfl⟩ | ⟨texts, broken, later, rfl, hbroken⟩
  · have hscanned := readable_map_ok texts []
    rw [List.append_nil, readable, List.append_nil] at hscanned
    have hnone : ∀ text ∈ texts, '\n' ∉ text.toList := fun text ht =>
      h.lineFeed_notMem (List.mem_map_of_mem ht)
    rw [hdecode, hscanned, stderr_replLines hv hnone]
    exact ⟨"", String.append_empty.symm, stops_nil⟩
  · have hnone : ∀ text ∈ texts, '\n' ∉ text.toList := fun text ht =>
      h.lineFeed_notMem (List.mem_append_left _ (List.mem_map_of_mem ht))
    rw [List.map_append, List.map_cons, hdecode, decode_of_not_isValidUTF8 hbroken,
      readable_map_ok, readable, List.append_nil,
      (breaksOff_replLines texts hbroken later v).stderr, stderr_replLines hv hnone]
    exact ⟨_, rfl, stops_cons (by decide)⟩

end

/-! ## All commands -/

/-- **A command in whose log nothing is lost.** Each event of a scan has one line of the stream for
errors, the lines are in the order of the events, and no control character is in them. The lexeme of
a token stands in its line between quotation marks and can be read from there, and all entries can
be read from the lines, whatever lines are behind them. Different events are written differently;
and if two runs leave the same text, they have scanned as many sources, with the same events. -/
structure LosesNothing (command : Command)
    (run : (String → Except ReadFailure ByteArray) → ByteArray → Console) : Prop where
  lines : ∃ (lead : List (List Char)) (behind : String → List (List Char)), ∀ read input,
    ∃ tail, pieces '\n' (run read input).stderr.toList =
      lead ++ ((command.scanned read input).flatMap fun source =>
        (events source).map Event.line ++ behind source) ++ tail
  hasNoControl : ∀ source, ∀ e ∈ events source, ∀ c ∈ e.line, Text.isControl c = false
  lexeme : ∀ t : Token, ∃ quoted,
    (Event.token t).line = "TRACE lox_lexer::scanner: token kind=".toList ++ t.kind.name.toList ++
      " lexeme=".toList ++ quoted ++ " line=".toList ++ (toString t.line.toNat).toList ∧
    ∀ more, unquote (quoted ++ more) = some (t.lexeme.toList, more)
  entries : ∀ source later, readLog ((events source).map Event.line ++ later) =
    some ((events source).map Event.entry, later)
  distinct : ∀ es fs : List Event, es.map Event.entry ≠ fs.map Event.entry →
    (es.flatMap fun e => e.line ++ ['\n']) ≠ fs.flatMap fun e => e.line ++ ['\n']
  unique : ∀ read input read' input', (run read input).stderr = (run read' input').stderr →
    List.Forall₂ SameLog (command.scanned read input) (command.scanned read' input')

section

variable {arguments : List String} {v : Nat} {coloured : Bool} {command : Command}
  (hparse : parse arguments = .ok (.run ⟨v, coloured⟩ command)) (hv : 3 ≤ v)

include hparse hv

theorem stderr_program (read : String → Except ReadFailure ByteArray) (input : ByteArray) :
    (program arguments read input).stderr =
      textOf Chunk.written (command.perform coloured read input).chunks := by
  rw [program_eq read input hparse]
  exact textOf_stderr_of_le hv _

/-- **A command on a file** writes its announcement and the log of the source. -/
theorem exists_stderr_file {file : String} (hfile : command.file? = some file) :
    ∃ lead, IsWhole lead ∧ ∀ read input, ∃ tail,
      command.scanned read input = readable [(read file).bind decode] ∧
      (program arguments read input).stderr =
        lead ++ (logsWith (fun _ => "") (command.scanned read input) ++ tail) ∧
      (command.scanned read input = [] → Stops (· = 'D') tail.toList) := by
  cases command with
  | lex name =>
    obtain rfl := Option.some.inj hfile
    refine ⟨(announce "tokenizing" name).written, .inr ⟨_, rfl⟩, fun read input => ?_⟩
    obtain ⟨tail, htail, hstop⟩ := exists_written_onFile (logsFirst_lexSource name coloured)
      "tokenizing" name (read name)
    exact ⟨tail, rfl, (stderr_program hparse hv read input).trans htail, hstop⟩
  | check name =>
    obtain rfl := Option.some.inj hfile
    refine ⟨(announce "checking" name).written, .inr ⟨_, rfl⟩, fun read input => ?_⟩
    obtain ⟨tail, htail, hstop⟩ := exists_written_onFile (logsFirst_checkSource name coloured)
      "checking" name (read name)
    exact ⟨tail, rfl, (stderr_program hparse hv read input).trans htail, hstop⟩
  | repl => cases hfile

/-- **Each event has a line of its own** in what a command writes. -/
theorem exists_lines : ∃ (lead : List (List Char)) (behind : String → List (List Char)),
    ∀ read input, ∃ tail, pieces '\n' (program arguments read input).stderr.toList =
      lead ++ ((command.scanned read input).flatMap fun source =>
        (events source).map Event.line ++ behind source) ++ tail := by
  obtain ⟨lead, behind, hlead, hbehind, hwritten⟩ : ∃ (lead : String) (behind : String → String),
      IsWhole lead ∧ (∀ source, IsWhole (behind source)) ∧ ∀ read input, ∃ tail,
        (program arguments read input).stderr =
          lead ++ (logsWith behind (command.scanned read input) ++ tail) := by
    cases hfile : command.file? with
    | some file =>
      obtain ⟨lead, hlead, hwritten⟩ := exists_stderr_file hparse hv hfile
      refine ⟨lead, fun _ => "", hlead, fun _ => .inl rfl, fun read input => ?_⟩
      obtain ⟨tail, -, htail, -⟩ := hwritten read input
      exact ⟨tail, htail⟩
    | none =>
      obtain rfl : command = .repl := by cases command <;> trivial
      refine ⟨"", complaints, .inl rfl, isWhole_complaints, fun read input => ?_⟩
      obtain ⟨tail, htail, -⟩ := exists_stderr_repl hv hparse read input
      exact ⟨tail, by rw [htail, String.empty_append]⟩
  refine ⟨linesOf lead, fun source => linesOf (behind source), fun read input => ?_⟩
  obtain ⟨tail, htail⟩ := hwritten read input
  refine ⟨pieces '\n' tail.toList, ?_⟩
  rw [htail, String.toList_append, String.toList_append, hlead.pieces_append,
    pieces_logsWith hbehind, List.append_assoc]

/-- **Two runs that leave the same text** have scanned sources with the same events. -/
theorem forall₂_sameLog {read read' : String → Except ReadFailure ByteArray}
    {input input' : ByteArray}
    (h : (program arguments read input).stderr = (program arguments read' input').stderr) :
    List.Forall₂ SameLog (command.scanned read input) (command.scanned read' input') := by
  have htext := congrArg String.toList h
  cases hfile : command.file? with
  | some file =>
    obtain ⟨lead, -, hwritten⟩ := exists_stderr_file hparse hv hfile
    obtain ⟨tail, hscanned, htail, hstop⟩ := hwritten read input
    obtain ⟨tail', hscanned', htail', hstop'⟩ := hwritten read' input'
    simp only [htail, htail', String.toList_append, List.append_cancel_left_eq] at htext
    rw [hscanned, hscanned'] at htext
    rw [hscanned] at hstop ⊢
    rw [hscanned'] at hstop' ⊢
    exact file_inj hstop hstop' htext
  | none =>
    obtain rfl : command = .repl := by cases command <;> trivial
    obtain ⟨tail, htail, hstop⟩ := exists_stderr_repl hv hparse read input
    obtain ⟨tail', htail', hstop'⟩ := exists_stderr_repl hv hparse read' input'
    rw [htail, htail', String.toList_append, String.toList_append] at htext
    exact logsWith_append_inj complaints_eq_of_sameLog hstop hstop' htext

end

/-- **Nothing is lost in the log of a command** if everything is logged, whatever is scanned. -/
theorem program_losesNothing {arguments : List String} {v : Nat} {coloured : Bool}
    {command : Command} (hparse : parse arguments = .ok (.run ⟨v, coloured⟩ command))
    (hv : 3 ≤ v) : LosesNothing command (program arguments) := by
  refine ⟨exists_lines hparse hv, fun source e _ => e.hasNoControl_text, fun t => ?_,
    readLog_events, fun es fs => mt flatMap_line_inj,
    fun read input read' input' h => forall₂_sameLog hparse hv h⟩
  exact ⟨_, Event.line_token t, fun more => Text.unquote_quote t.lexeme.toList more⟩

/-- A string that holds an escape character and a line feed, in the log of `lex`. -/
theorem losesNothing_of_string :
    parse ["-vvv", "lex", "a.lox"] = .ok (.run ⟨3, true⟩ (.lex "a.lox")) ∧
    (Command.lex "a.lox").scanned (fun _ => .ok "\"\x1b\n\"".toUTF8) .empty = ["\"\x1b\n\""] ∧
    LosesNothing (.lex "a.lox") (program ["-vvv", "lex", "a.lox"]) := by
  have hparse : parse ["-vvv", "lex", "a.lox"] = .ok (.run ⟨3, true⟩ (.lex "a.lox")) := by cbv
  refine ⟨hparse, ?_, program_losesNothing hparse (by decide)⟩
  have hread : (Except.ok "\"\x1b\n\"".toUTF8).bind decode = .ok "\"\x1b\n\"" :=
    decode_toUTF8 "\"\x1b\n\""
  rw [Command.scanned, hread, readable_ok]

example : (program ["-vvv", "lex", "a.lox"] (fun _ => .ok "\"\x1b\n\"".toUTF8) .empty).stderr =
    " INFO lox: tokenizing a.lox\n" ++
      "DEBUG lox_lexer::scanner: scanning source bytes=4\n" ++
      "TRACE lox_lexer::scanner: token kind=STRING lexeme=\"\\\"\\u\x7b1b\x7d\\n\\\"\" line=1\n" ++
      "DEBUG lox_lexer::scanner: scan finished tokens=2 errors=0 lines=2\n" := by
  decide +kernel

end Lox.CommandLine
