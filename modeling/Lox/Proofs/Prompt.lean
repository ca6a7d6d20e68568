import Lox.CommandLine.Program
import Lox.Proofs.InputLines
import Lox.Proofs.Streams
import Lox.Proofs.Visits
import Mathlib.Data.List.TakeDrop

/-!
# Sessions at the prompt

A session answers every line of its input as if there were no other. It remembers nothing of a line
that it has answered, be there errors or not, and it ends at the first line that is no text: what it
has written before stays as it is, and what comes behind is never looked at.

## Main definitions

* `IsReadAs`: what the lines of an input are
* `rows`, `complaints`, `logged`: what a session says of a text on either stream
* `answers`: what it writes for texts, a prompt before each
* `Console.Completes`: what a session leaves that has answered all of its lines
* `Console.BreaksOff`: how a session breaks off where another one is at its end
* `AnswersLines`: a session that answers every line as if it were alone

## Main results

* `replLines_append`: a session over some texts and other lines
* `session_answersLines`: what a session leaves for any input
-/

namespace Lox

/-! ## Sources on one line -/

section

variable {source : String} {d : Diagnostic}

theorem line_of_mem_report (h : '\n' ∉ source.toList) (hd : d ∈ (scan source).report.toList) :
    d.line = 1 := by
  rw [scan_report, faults_eq_visits] at hd
  obtain ⟨f, hf, rfl⟩ := List.mem_map.mp hd
  obtain ⟨v, hv, hvf⟩ := List.mem_filterMap.mp hf
  have hbefore : '\n' ∉ v.before := fun hmem =>
    h (source_eq_of_mem_visits hv ▸ List.mem_append_left _ hmem)
  rw [f.diagnostic_line, (cause_of_fault hv hvf).1, List.count_eq_zero.mpr hbefore]
  rfl

/-- An error as it is shown on the first line. -/
theorem text_withLine_of_mem_report (hd : d ∈ (scan source).report.toList) :
    (d.withLine 1).text = "[line 1] Error: " ++ d.message := by
  rw [scan_report] at hd
  obtain ⟨f, -, rfl⟩ := List.mem_map.mp hd
  have hs : (f.diagnostic.withLine 1).severity = .error := of_decide_eq_true f.diagnostic_isError
  have start : "[line " ++ toString (1 : UInt32).toNat ++ "] " ++ Severity.error.title ++ ": " =
      "[line 1] Error: " := by decide
  rw [Diagnostic.text, hs, ← start]
  rfl

/-- A source on one line has all of its errors there. -/
theorem text_of_mem_report (h : '\n' ∉ source.toList) (hd : d ∈ (scan source).report.toList) :
    d.text = "[line 1] Error: " ++ d.message := by
  rw [← text_withLine_of_mem_report hd, ← line_of_mem_report h hd]
  rfl

end

namespace CommandLine

/-! ## Lines that are texts -/

/-- **The lines of an input.** -/
def IsReadAs (input : ByteArray) (lines : List (List UInt8)) : Prop :=
  HasLines lineFeed carriageReturn input.toList lines

/-- **Lines are texts up to the first that is none**, if there is one. -/
theorem exists_texts (lines : List (List UInt8)) :
    (∃ texts : List String, lines = texts.map bytesOf) ∨
    ∃ (texts : List String) (broken : List UInt8) (later : List (List UInt8)),
      lines = texts.map bytesOf ++ broken :: later ∧
        ¬ ByteArray.IsValidUTF8 ⟨broken.toArray⟩ := by
  induction lines with
  | nil => exact Or.inl ⟨[], rfl⟩
  | cons line lines ih =>
    by_cases hline : ByteArray.IsValidUTF8 ⟨line.toArray⟩
    · obtain ⟨text, rfl⟩ := exists_bytesOf hline
      rcases ih with ⟨texts, rfl⟩ | ⟨texts, broken, later, rfl, hbroken⟩
      · exact Or.inl ⟨text :: texts, rfl⟩
      · exact Or.inr ⟨text :: texts, broken, later, rfl, hbroken⟩
    · exact Or.inr ⟨[], line, lines, rfl, hline⟩

/-! ## Answers -/

/-- The rows of the tokens of a text, that of its end included. -/
def rows (text : String) : String :=
  String.join ((scan text).tokens.map fun t => t.text ++ "\n")

/-- The errors of a text, all of them on its first line. -/
def complaints (text : String) : String :=
  String.join ((scan text).report.toList.map fun d => "[line 1] Error: " ++ d.message ++ "\n")

/-- The log of a text, if it is asked for. -/
def logged (verbosity : Nat) (text : String) : String :=
  textOf (Chunk.stderr verbosity) (scanLog text)

/-- What a session writes for texts, a prompt before each. -/
def answers (texts : List String) : List Chunk := texts.flatMap fun text => prompt :: answerText text

theorem stdout_answerText (text : String) : textOf Chunk.stdout (answerText text) = rows text := by
  rw [answerText, textOf_append, textOf_append, stdout_scanLog,
    textOf_map_eq_empty (fun _ => Chunk.stdout_err _), textOf_map, String.empty_append,
    String.append_empty]
  rfl

theorem logged_zero (text : String) : logged 0 text = "" :=
  stderr_scanLog_zero text

theorem stderr_answerText {text : String} (h : '\n' ∉ text.toList) (verbosity : Nat) :
    textOf (Chunk.stderr verbosity) (answerText text) = logged verbosity text ++ complaints text := by
  have each : (scan text).report.toList.map (fun d => d.text ++ "\n") =
      (scan text).report.toList.map fun d => "[line 1] Error: " ++ d.message ++ "\n" :=
    List.map_congr_left fun d hd => by rw [text_of_mem_report h hd]
  rw [answerText, textOf_append, textOf_append, textOf_map_eq_empty (fun _ => Chunk.stderr_out _ _),
    textOf_map, String.append_empty, logged, complaints, ← each]
  rfl

theorem stdout_answers (texts : List String) :
    textOf Chunk.stdout (answers texts) = String.join (texts.map fun text => "> " ++ rows text) := by
  rw [answers, textOf_flatMap]
  simp only [textOf_cons, prompt, Chunk.stdout_out, stdout_answerText]

theorem stderr_answers {texts : List String} (h : ∀ text ∈ texts, '\n' ∉ text.toList)
    (verbosity : Nat) : textOf (Chunk.stderr verbosity) (answers texts) =
      String.join (texts.map fun text => logged verbosity text ++ complaints text) := by
  have each : texts.map (fun text => textOf (Chunk.stderr verbosity) (prompt :: answerText text)) =
      texts.map fun text => logged verbosity text ++ complaints text :=
    List.map_congr_left fun text htext => by
      rw [textOf_cons, prompt, Chunk.stderr_out, String.empty_append,
        stderr_answerText (h text htext)]
  rw [answers, textOf_flatMap, each]

/-! ## Sessions -/

/-- **A session over some texts and other lines** answers the texts, and then does what it does with
the other lines. -/
theorem replLines_append (texts : List String) (lines : List (List UInt8)) :
    replLines (texts.map bytesOf ++ lines) =
      { replLines lines with chunks := answers texts ++ (replLines lines).chunks } := by
  induction texts with
  | nil => rfl
  | cons text texts ih =>
    have answer : answerLine (bytesOf text) = .ok (answerText text) := by
      rw [answerLine, decode_bytesOf]
      rfl
    rw [List.map_cons, List.cons_append, replLines, answer]
    simp only [ih, answers, List.flatMap_cons, List.append_assoc]

theorem replLines_map (texts : List String) :
    replLines (texts.map bytesOf) =
      { chunks := answers texts ++ [prompt, .out "\n"], exit := .success } := by
  rw [← List.append_nil (texts.map bytesOf), replLines_append]
  rfl

/-- **A line that is no text ends a session**, whatever is behind it. -/
theorem replLines_broken (texts : List String) {broken : List UInt8}
    (h : ¬ ByteArray.IsValidUTF8 ⟨broken.toArray⟩) (later : List (List UInt8)) :
    replLines (texts.map bytesOf ++ broken :: later) =
      { chunks := answers texts ++ [prompt, inputFailed .notText], exit := .inputError } := by
  have failure : answerLine broken = .error .notText := by
    rw [answerLine, decode_of_not_isValidUTF8 h]
    rfl
  rw [replLines_append, replLines, failure]

/-- **A session that has answered all of its lines**: rows and errors line after line, a prompt
before each line and one more at the end. The log of a line stands before its errors. -/
structure Console.Completes (console : Console) (verbosity : Nat) (texts : List String) :
    Prop where
  stdout : console.stdout = String.join (texts.map fun text => "> " ++ rows text) ++ "> " ++ "\n"
  stderr : console.stderr =
    String.join (texts.map fun text => logged verbosity text ++ complaints text)
  quiet : verbosity = 0 → console.stderr = String.join (texts.map complaints)
  exit : console.exit.code = 0

/-- **A session that breaks off** where another one is at its end: all that was said is the same up
to the last prompt, and then the failure is told. -/
structure Console.BreaksOff (console complete : Console) : Prop where
  stdout : ∃ said, complete.stdout = said ++ "> " ++ "\n" ∧ console.stdout = said ++ "> "
  stderr : console.stderr =
    complete.stderr ++ "error: I/O error: stream did not contain valid UTF-8\n"
  exit : console.exit.code = 74

theorem completes_replLines {texts : List String} (h : ∀ text ∈ texts, '\n' ∉ text.toList)
    (verbosity : Nat) :
    ((replLines (texts.map bytesOf)).console verbosity).Completes verbosity texts := by
  have stderr : (replLines (texts.map bytesOf)).stderr verbosity =
      String.join (texts.map fun text => logged verbosity text ++ complaints text) := by
    rw [replLines_map, Outcome.stderr_eq, textOf_append, stderr_answers h]
    exact String.append_empty
  refine ⟨?_, stderr, ?_, ?_⟩
  · rw [replLines_map, Outcome.console, Outcome.stdout_eq, textOf_append, stdout_answers,
      String.append_assoc]
    rfl
  · rintro rfl
    simp only [logged_zero, String.empty_append] at stderr
    exact stderr
  · rw [replLines_map]
    rfl

theorem breaksOff_replLines (texts : List String) {broken : List UInt8}
    (h : ¬ ByteArray.IsValidUTF8 ⟨broken.toArray⟩) (later : List (List UInt8)) (verbosity : Nat) :
    ((replLines (texts.map bytesOf ++ broken :: later)).console verbosity).BreaksOff
      ((replLines (texts.map bytesOf)).console verbosity) := by
  rw [replLines_broken texts h, replLines_map]
  refine ⟨⟨textOf Chunk.stdout (answers texts), ?_, ?_⟩, ?_, rfl⟩
  · rw [Outcome.console, Outcome.stdout_eq, textOf_append, String.append_assoc]
    rfl
  · rw [Outcome.console, Outcome.stdout_eq, textOf_append]
    rfl
  · rw [Outcome.console, Outcome.console, Outcome.stderr_eq, Outcome.stderr_eq, textOf_append,
      textOf_append, String.append_assoc]
    rfl

/-! ## All inputs -/

/-- **Every line of an input is answered as if it were alone**, up to the first that is no text. A
session over an input with such a line is the session over the lines before it, broken off: the
lines behind it are of no effect. -/
inductive AnswersLines (session : ByteArray → Console) (verbosity : Nat) (input : ByteArray) : Prop
  | completes {texts : List String} : IsReadAs input (texts.map bytesOf) →
      (session input).Completes verbosity texts → AnswersLines session verbosity input
  | breaksOff {texts : List String} {broken : List UInt8} {later : List (List UInt8)} :
      IsReadAs input (texts.map bytesOf ++ broken :: later) →
      ¬ ByteArray.IsValidUTF8 ⟨broken.toArray⟩ →
      (∃ alone, IsReadAs alone (texts.map bytesOf)) →
      (∀ alone, IsReadAs alone (texts.map bytesOf) →
        (session alone).Completes verbosity texts ∧ (session input).BreaksOff (session alone)) →
      (∀ other later, IsReadAs other (texts.map bytesOf ++ broken :: later) →
        session other = session input) →
      AnswersLines session verbosity input

section

variable {arguments : List String} {v : Nat} {coloured : Bool}
  {read : String → Except ReadFailure ByteArray} {input : ByteArray}

theorem program_eq_replLines (harguments : parse arguments = .ok (.run ⟨v, coloured⟩ .repl))
    {lines : List (List UInt8)} (h : IsReadAs input lines) :
    program arguments read input = (replLines lines).console v := by
  rw [program, harguments, ← h.inputLines_eq]
  rfl

theorem IsReadAs.lineFeed_notMem {lines : List (List UInt8)} (h : IsReadAs input lines)
    {text : String} (htext : bytesOf text ∈ lines) : '\n' ∉ text.toList :=
  lineFeed_notMem_toList (h.notMem _ htext)

theorem IsReadAs.exists_alone {front back : List (List UInt8)} (h : IsReadAs input (front ++ back)) :
    ∃ alone, IsReadAs alone front := by
  obtain ⟨before, -, hbefore⟩ := h.exists_of_prefix (List.prefix_append front back)
  refine ⟨⟨before.toArray⟩, ?_⟩
  rwa [IsReadAs, toList_eq_data_toList]

end

/-- **A session answers the lines of any input.** -/
theorem session_answersLines {arguments : List String} {v : Nat} {coloured : Bool}
    (read : String → Except ReadFailure ByteArray) (input : ByteArray)
    (harguments : parse arguments = .ok (.run ⟨v, coloured⟩ .repl)) :
    AnswersLines (program arguments read) v input := by
  obtain ⟨lines, h⟩ : ∃ lines, IsReadAs input lines := exists_hasLines _ _ _
  rcases exists_texts lines with ⟨texts, rfl⟩ | ⟨texts, broken, later, rfl, hbroken⟩
  · refine .completes h ?_
    rw [program_eq_replLines harguments h]
    exact completes_replLines (fun text ht => h.lineFeed_notMem (List.mem_map_of_mem ht)) v
  · refine .breaksOff h hbroken h.exists_alone (fun alone halone => ?_) fun other later hother => ?_
    · rw [program_eq_replLines harguments halone, program_eq_replLines harguments h]
      refine ⟨completes_replLines (fun text ht => ?_) v, breaksOff_replLines texts hbroken later v⟩
      exact halone.lineFeed_notMem (List.mem_map_of_mem ht)
    · rw [program_eq_replLines harguments hother, program_eq_replLines harguments h,
        replLines_broken texts hbroken, replLines_broken texts hbroken]

/-- A string without end, a line that is no text, and a number that is never seen. -/
theorem session_answersLines_until_broken :
    parse ["-v", "repl"] = .ok (.run ⟨1, true⟩ .repl) ∧
      AnswersLines (program ["-v", "repl"] fun _ => .error .notFound) 1
        ⟨#[34, 13, 10, 255, 10, 49]⟩ := by
  have harguments : parse ["-v", "repl"] = .ok (.run ⟨1, true⟩ .repl) := by cbv
  exact ⟨harguments, session_answersLines _ _ harguments⟩

example : program ["-v", "repl"] (fun _ => .error .notFound) ⟨#[34, 13, 10, 255, 10, 49]⟩ =
    { stdout := "> EOF  null\n> "
      stderr := "[line 1] Error: Unterminated string.\n" ++
        "error: I/O error: stream did not contain valid UTF-8\n"
      exit := .inputError } := by
  decide +kernel

end CommandLine

end Lox
