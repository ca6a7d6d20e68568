import Lox.CommandLine.Program
import Lox.Proofs.Streams
import Mathlib.Data.List.TakeDrop

/-!
# Two commands on one file

Every diagnostic of a scan is an error. So `lex` and `check`, which only ask whether there are
errors, end in the same way on every file, and both show all of its diagnostics in the same words.

## Main definitions

* `blocksOf`: the blocks of the diagnostics of a file
* `Console.Refuses`: what is left of a command on a file that is no text
* `Console.Lists`, `Console.Judges`: what `lex` and `check` leave for a file

## Main results

* `hasErrors_scan_iff`: a scan that reports anything reports errors
* `lex_check_agree`: what the two commands leave for a file with any bytes
-/

namespace Lox

/-! ## Errors -/

theorem isError_of_mem_report {source : String} {d : Diagnostic}
    (h : d ∈ (scan source).report.toList) : d.isError = true := by
  rw [scan_report] at h
  obtain ⟨f, -, rfl⟩ := List.mem_map.mp h
  exact f.diagnostic_isError

/-- **A scan that reports anything reports errors.** -/
theorem hasErrors_scan_iff (source : String) :
    (scan source).report.hasErrors = true ↔ (scan source).report.toList ≠ [] := by
  rw [Report.hasErrors_eq, List.any_eq_true]
  constructor
  · rintro ⟨d, hd, -⟩
    exact List.ne_nil_of_mem hd
  · intro h
    obtain ⟨d, hd⟩ := List.exists_mem_of_ne_nil _ h
    exact ⟨d, hd, isError_of_mem_report hd⟩

namespace CommandLine

/-- The blocks of the diagnostics of a file, in order, with a line feed between two of them. -/
def blocksOf (file source : String) (coloured : Bool) : String :=
  "\n".intercalate ((scan source).report.toList.map fun d =>
    d.render { source := some (.ofText file source), coloured })

/-! ## What is left on the console -/

/-- **A file that is no text is refused**, and nothing is said of it on the standard output. -/
structure Console.Refuses (console : Console) : Prop where
  exit : console.exit.code = 66
  stdout : console.stdout = ""

/-- **The tokens of a file are listed**, one row each, with their number behind an empty line. The
blocks of what is wrong stand behind another one. -/
structure Console.Lists (console : Console) (verbosity : Nat) (source blocks : String) : Prop where
  stdout : console.stdout =
    String.join ((scan source).tokens.map fun t => t.row ++ "\n") ++
      ("\n" ++ "Total: " ++ toString (scan source).tokens.length ++ " tokens\n")
  clean : (scan source).report.toList = [] → console.exit.code = 0
  faulty : (scan source).report.toList ≠ [] → console.exit.code = 65
  stderr : (scan source).report.toList ≠ [] → verbosity = 0 →
    console.stderr = "\n" ++ blocks ++ "\n"

/-- **A file is judged** by the number of its tokens, or else by the blocks of what is wrong with
it and their number. -/
structure Console.Judges (console : Console) (verbosity : Nat) (file source blocks : String) :
    Prop where
  clean : (scan source).report.toList = [] → console.exit.code = 0 ∧
    console.stdout = "  [ok] Lexer: " ++ toString (scan source).tokens.length ++ " tokens\n"
  faulty : (scan source).report.toList ≠ [] → console.exit.code = 65 ∧ console.stdout = ""
  stderr : (scan source).report.toList ≠ [] → verbosity = 0 → console.stderr = blocks ++ "\n" ++
    ("Found " ++ toString (scan source).report.toList.length ++ " error(s) in " ++ file ++ "\n")

/-! ## What the commands do -/

section

variable {file source : String} {coloured : Bool}

theorem lexSource_of_clean (h : (scan source).report.toList = []) :
    lexSource file source coloured =
      { chunks := scanLog source ++ [.out (listing (scan source).tokens)], exit := .success } := by
  rw [lexSource, if_neg]
  exact mt (hasErrors_scan_iff source).mp (not_not_intro h)

theorem lexSource_of_faulty (h : (scan source).report.toList ≠ []) :
    lexSource file source coloured =
      { chunks := scanLog source ++ [.out (listing (scan source).tokens)] ++
          [.err ("\n" ++ blocksOf file source coloured ++ "\n")]
        exit := .dataError } := by
  rw [lexSource, if_pos ((hasErrors_scan_iff source).mpr h)]
  rfl

theorem checkSource_of_clean (h : (scan source).report.toList = []) :
    checkSource file source coloured =
      { chunks := scanLog source ++
          [.out ("  [ok] Lexer: " ++ toString (scan source).tokens.length ++ " tokens\n")]
        exit := .success } := by
  rw [checkSource, if_neg]
  exact mt (hasErrors_scan_iff source).mp (not_not_intro h)

theorem checkSource_of_faulty (h : (scan source).report.toList ≠ []) :
    checkSource file source coloured =
      { chunks := scanLog source ++
          [.err (blocksOf file source coloured ++ "\n"),
           .err ("Found " ++ toString (scan source).report.toList.length ++ " error(s) in " ++
             file ++ "\n")]
        exit := .dataError } := by
  rw [checkSource, if_pos ((hasErrors_scan_iff source).mpr h)]
  rfl

end

section

variable (activity file : String) (command : String → Outcome) (verbosity : Nat)

/-- A file that is no text is refused, whatever the command. -/
theorem refuses_onFile {bytes : ByteArray} (h : ¬ bytes.IsValidUTF8) :
    ((onFile activity file (.ok bytes) command).console verbosity).Refuses := by
  have hd : (Except.ok bytes).bind decode = .error ReadFailure.notText :=
    decode_of_not_isValidUTF8 h
  rw [onFile, hd]
  exact ⟨rfl, by simp [Outcome.console, Outcome.stdout_eq, announce, readFailed]⟩

/-- A command on a text is announced and done. -/
theorem onFile_of_text (source : String) :
    onFile activity file (.ok source.toUTF8) command =
      { command source with chunks := announce activity file :: (command source).chunks } := by
  have hd : (Except.ok source.toUTF8).bind decode = .ok source := decode_toUTF8 source
  rw [onFile, hd]

end

theorem lists_lexFile (file source : String) (coloured : Bool) (verbosity : Nat) :
    ((lexFile file (.ok source.toUTF8) coloured).console verbosity).Lists verbosity source
      (blocksOf file source coloured) := by
  rw [lexFile, onFile_of_text]
  by_cases h : (scan source).report.toList = []
  · rw [lexSource_of_clean h]
    refine ⟨?_, fun _ => rfl, fun hne => absurd h hne, fun hne => absurd h hne⟩
    simp [Outcome.console, Outcome.stdout_eq, announce, listing, String.append_assoc]
  · rw [lexSource_of_faulty h]
    refine ⟨?_, fun hnil => absurd hnil h, fun _ => rfl, ?_⟩
    · simp [Outcome.console, Outcome.stdout_eq, announce, listing, String.append_assoc]
    · rintro - rfl
      simp [Outcome.console, Outcome.stderr_eq, announce]

theorem judges_checkFile (file source : String) (coloured : Bool) (verbosity : Nat) :
    ((checkFile file (.ok source.toUTF8) coloured).console verbosity).Judges verbosity file source
      (blocksOf file source coloured) := by
  rw [checkFile, onFile_of_text]
  by_cases h : (scan source).report.toList = []
  · rw [checkSource_of_clean h]
    refine ⟨fun _ => ⟨rfl, ?_⟩, fun hne => absurd h hne, fun hne => absurd h hne⟩
    simp [Outcome.console, Outcome.stdout_eq, announce]
  · rw [checkSource_of_faulty h]
    refine ⟨fun hnil => absurd hnil h, fun _ => ⟨rfl, ?_⟩, ?_⟩
    · simp [Outcome.console, Outcome.stdout_eq, announce]
    · rintro - rfl
      simp [Outcome.console, Outcome.stderr_eq, announce, String.append_assoc]

/-- What a command leaves on the console. -/
theorem program_eq {arguments : List String} {verbosity : Nat} {coloured : Bool}
    {command : Command} (read : String → Except ReadFailure ByteArray) (input : ByteArray)
    (h : parse arguments = .ok (.run ⟨verbosity, coloured⟩ command)) :
    program arguments read input = (command.perform coloured read input).console verbosity := by
  rw [program, h]

/-- **`lex` and `check` agree on every file.** If the file is no text, both refuse it. If it is the
text of a source, the tokens that `lex` lists are as many as `check` counts, both commands end with
an error just if the scan reports something, and they show the same blocks. -/
theorem lex_check_agree {lexArguments checkArguments : List String} {v w : Nat} {coloured : Bool}
    {file : String} {bytes : ByteArray} (read : String → Except ReadFailure ByteArray)
    (input : ByteArray) (hlex : parse lexArguments = .ok (.run ⟨v, coloured⟩ (.lex file)))
    (hcheck : parse checkArguments = .ok (.run ⟨w, coloured⟩ (.check file)))
    (hread : read file = .ok bytes) :
    (¬ bytes.IsValidUTF8 → (program lexArguments read input).Refuses ∧
      (program checkArguments read input).Refuses) ∧
    ∀ h : bytes.IsValidUTF8,
      (program lexArguments read input).Lists v (.fromUTF8 bytes h)
        (blocksOf file (.fromUTF8 bytes h) coloured) ∧
      (program checkArguments read input).Judges w file (.fromUTF8 bytes h)
        (blocksOf file (.fromUTF8 bytes h) coloured) := by
  have hl : program lexArguments read input = (lexFile file (.ok bytes) coloured).console v := by
    rw [program, hlex]
    simp only [Command.perform, hread]
  have hc : program checkArguments read input =
      (checkFile file (.ok bytes) coloured).console w := by
    rw [program, hcheck]
    simp only [Command.perform, hread]
  rw [hl, hc]
  constructor
  · intro h
    exact ⟨refuses_onFile _ _ _ _ h, refuses_onFile _ _ _ _ h⟩
  · intro h
    exact ⟨lists_lexFile file (.fromUTF8 bytes h) coloured v,
      judges_checkFile file (.fromUTF8 bytes h) coloured w⟩

/-- A file with a stray character, and one whose only byte begins no character. -/
theorem lex_check_of_stray_and_of_no_text :
    parse ["lex", "--no-color", "a.lox"] = .ok (.run ⟨0, false⟩ (.lex "a.lox")) ∧
    parse ["--no-color", "check", "a.lox"] = .ok (.run ⟨0, false⟩ (.check "a.lox")) ∧
    (program ["lex", "--no-color", "a.lox"] (fun _ => .ok "@".toUTF8) .empty).Lists 0 "@"
      (blocksOf "a.lox" "@" false) ∧
    (program ["--no-color", "check", "a.lox"] (fun _ => .ok "@".toUTF8) .empty).Judges 0 "a.lox" "@"
      (blocksOf "a.lox" "@" false) ∧
    ¬ ByteArray.IsValidUTF8 ⟨#[0xff]⟩ ∧
    (program ["lex", "--no-color", "a.lox"] (fun _ => .ok ⟨#[0xff]⟩) .empty).Refuses ∧
    (program ["--no-color", "check", "a.lox"] (fun _ => .ok ⟨#[0xff]⟩) .empty).Refuses := by
  have hlex : parse ["lex", "--no-color", "a.lox"] = .ok (.run ⟨0, false⟩ (.lex "a.lox")) := by
    cbv
  have hcheck : parse ["--no-color", "check", "a.lox"] =
      .ok (.run ⟨0, false⟩ (.check "a.lox")) := by
    cbv
  have hinvalid : ¬ ByteArray.IsValidUTF8 ⟨#[0xff]⟩ := by decide +kernel
  have text := (lex_check_agree (fun _ => .ok "@".toUTF8) .empty hlex hcheck rfl).2 "@".isValidUTF8
  have none := (lex_check_agree (fun _ => .ok ⟨#[0xff]⟩) .empty hlex hcheck rfl).1 hinvalid
  exact ⟨hlex, hcheck, text.1, text.2, hinvalid, none.1, none.2⟩

end CommandLine

end Lox
