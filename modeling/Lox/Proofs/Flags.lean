import Lox.Proofs.Colours
import Lox.Proofs.Encoding
import Lox.Proofs.Entries
import Lox.Proofs.FileCommands

/-!
# Flags do not touch the results

Flags ask for a verbosity and for colours. The verbosity selects among the entries of the log, and
the colours show in the diagnostics of a file and nowhere else. Both are written to the stream for
errors. So neither the standard output nor the exit depends on the flags, whatever becomes of the
command.

## Main definitions

* `levelsAt`: the levels that are logged at a verbosity
* `Chunk.written`, `Chunk.isKept`: a chunk on the stream for errors if everything is logged, and
  whether it is kept at a verbosity
* `Frame`: all that a command writes around the blocks of its file
* `ShowsColours`: an outcome that depends on colours at most in the blocks of a file
* `Command.IsTame`: a command on a file whose name and bytes hold no escape character

## Main results

* `textOf_stderr_eq`: a lower verbosity only takes out entries of the log
* `Command.showsColours_perform`: where the colours of a command show
* `flags_doNotInterfere`: two runs of a command under different flags
-/

namespace Lox.CommandLine

open Text (IsTame Decorates uncolour)

/-! ## Verbosity -/

/-- **The levels that are logged at a verbosity.** -/
def levelsAt : Nat → List Level
  | 0 => []
  | 1 => [.info]
  | 2 => [.info, .debug]
  | _ => [.info, .debug, .trace]

theorem mem_levelsAt_iff {level : Level} {verbosity : Nat} :
    level ∈ levelsAt verbosity ↔ level.threshold ≤ verbosity := by
  match verbosity with
  | 0 => cases level <;> decide
  | 1 => cases level <;> decide
  | 2 => cases level <;> decide
  | n + 3 =>
    have hall : level ∈ levelsAt (n + 3) := by cases level <;> simp [levelsAt]
    have hle : level.threshold ≤ 3 := by cases level <;> decide
    exact iff_of_true hall (by omega)

namespace Chunk

/-- A chunk on the stream for errors if everything is logged: an entry of the log is a line. -/
def written : Chunk → String
  | out _ => ""
  | err text => text
  | log entry => entry.text ++ "\n"

/-- Whether a chunk is kept at a verbosity: only entries of the log are ever left out. -/
def isKept (verbosity : Nat) : Chunk → Bool
  | out _ | err _ => true
  | log entry => entry.level ∈ levelsAt verbosity

theorem stderr_eq (verbosity : Nat) (chunk : Chunk) :
    chunk.stderr verbosity = if chunk.isKept verbosity then chunk.written else "" := by
  cases chunk with
  | out | err => rfl
  | log entry => simp [stderr, isKept, written, mem_levelsAt_iff]

theorem isKept_of_le {verbosity : Nat} (h : 3 ≤ verbosity) (chunk : Chunk) :
    chunk.isKept verbosity = true := by
  cases chunk with
  | out | err => rfl
  | log entry =>
    have hle : entry.level.threshold ≤ 3 := by cases entry.level <;> decide
    rw [isKept, decide_eq_true_iff, mem_levelsAt_iff]
    exact hle.trans h

end Chunk

/-- **A lower verbosity takes out entries of the log** and nothing else. -/
theorem textOf_stderr_eq (verbosity : Nat) (chunks : List Chunk) :
    textOf (Chunk.stderr verbosity) chunks =
      textOf Chunk.written (chunks.filter (Chunk.isKept verbosity)) := by
  induction chunks with
  | nil => rw [List.filter_nil, textOf_nil, textOf_nil]
  | cons chunk chunks ih =>
    rw [textOf_cons, Chunk.stderr_eq, ih]
    by_cases h : chunk.isKept verbosity = true
    · rw [if_pos h, List.filter_cons_of_pos h, textOf_cons]
    · rw [if_neg h, List.filter_cons_of_neg h, String.empty_append]

theorem filter_isKept_of_le {verbosity : Nat} (h : 3 ≤ verbosity) (chunks : List Chunk) :
    chunks.filter (Chunk.isKept verbosity) = chunks :=
  List.filter_eq_self.mpr fun chunk _ => Chunk.isKept_of_le h chunk

theorem textOf_stderr_of_le {verbosity : Nat} (h : 3 ≤ verbosity) (chunks : List Chunk) :
    textOf (Chunk.stderr verbosity) chunks = textOf Chunk.written chunks := by
  rw [textOf_stderr_eq, filter_isKept_of_le h]

/-! ## Texts without escape characters -/

theorem isTame_of_hasNoControl {text : String} (h : Text.HasNoControl text) : IsTame text := by
  intro hmem
  cases h '\x1b' hmem

theorem isTame_of_bytesOf {text : String} (h : 0x1b ∉ bytesOf text) : IsTame text := by
  intro hmem
  rw [bytesOf_eq_flatMap, List.mem_flatMap, not_exists] at h
  exact h '\x1b' ⟨hmem, by decide⟩

/-- An announcement is disarmed, whatever the name of the file is. -/
theorem isTame_announce (activity file : String) : IsTame (announce activity file).written := by
  apply IsTame.append
  · have htext : ∀ c ∈ (Entry.text ⟨.info, "lox", activity ++ " " ++ file, []⟩).toList,
        c ≠ '\x1b' := by
      apply Entry.forall_mem_text (p := (· ≠ '\x1b')) (by decide) (by decide) (by decide)
      · exact IsTame.ne_escape (s := "INFO") (by decide)
      · exact IsTame.ne_escape (s := "lox") (by decide)
      · rintro c hc rfl
        cases Text.isCommand_of_mem_disarm hc
      · exact nofun
    exact fun hmem => htext _ hmem rfl
  · decide

theorem isTame_of_mem_scanLog {source : String} {chunk : Chunk} (h : chunk ∈ scanLog source) :
    IsTame chunk.written := by
  obtain ⟨e, -, rfl⟩ := List.mem_map.mp h
  exact IsTame.append (isTame_of_hasNoControl e.hasNoControl_text) (by decide)

/-- The coloured blocks of a file decorate those without colours. -/
theorem decorates_blocksOf {file source : String} (h : (Source.ofText file source).IsTame)
    (coloured : Bool) :
    Decorates (blocksOf file source coloured) (blocksOf file source false) := by
  have tame : ∀ s ∈ some (Source.ofText file source), s.IsTame := by
    rintro s ⟨⟩
    exact h
  let r : Rendering := { source := some (.ofText file source), coloured }
  exact Report.decorates_render (r := r) (fun d hd => isTame_of_mem_report hd) tame

theorem isTame_textOf {chunks : List Chunk} (h : ∀ chunk ∈ chunks, IsTame chunk.written)
    (verbosity : Nat) : IsTame (textOf (Chunk.stderr verbosity) chunks) := by
  induction chunks with
  | nil => simp [IsTame]
  | cons chunk chunks ih =>
    rw [textOf_cons, Chunk.stderr_eq]
    apply IsTame.append
    · split
      · exact h chunk List.mem_cons_self
      · simp [IsTame]
    · exact ih fun other hother => h other (List.mem_cons_of_mem chunk hother)

/-! ## Where colours show -/

/-- All that a command writes around the blocks of its file. -/
structure Frame where
  lead : List Chunk
  /-- The text right before the blocks. -/
  first : String
  /-- The text right behind the blocks. -/
  last : String
  tail : List Chunk
  exit : Exit

namespace Frame

/-- The outcome with these blocks. -/
def outcome (frame : Frame) (blocks : String) : Outcome :=
  { chunks := frame.lead ++ .err (frame.first ++ blocks ++ frame.last) :: frame.tail
    exit := frame.exit }

/-- A frame without escape characters. -/
structure IsTame (frame : Frame) : Prop where
  lead : ∀ chunk ∈ frame.lead, Text.IsTame chunk.written
  first : Text.IsTame frame.first
  last : Text.IsTame frame.last
  tail : ∀ chunk ∈ frame.tail, Text.IsTame chunk.written

variable {frame : Frame}

theorem exit_outcome (blocks : String) : (frame.outcome blocks).exit = frame.exit := rfl

theorem stdout_outcome (blocks : String) :
    (frame.outcome blocks).stdout =
      textOf Chunk.stdout frame.lead ++ textOf Chunk.stdout frame.tail := by
  rw [Outcome.stdout_eq, outcome, textOf_append, textOf_cons, Chunk.stdout_err,
    String.empty_append]

/-- Blocks that decorate others do so in a frame without escape characters. -/
theorem IsTame.decorates (h : frame.IsTame) {blocks plain : String} (hb : Decorates blocks plain)
    (verbosity : Nat) :
    Decorates ((frame.outcome blocks).stderr verbosity)
      ((frame.outcome plain).stderr verbosity) := by
  have split (blocks : String) : (frame.outcome blocks).stderr verbosity =
      textOf (Chunk.stderr verbosity) frame.lead ++ ((frame.first ++ blocks ++ frame.last) ++
        textOf (Chunk.stderr verbosity) frame.tail) := by
    rw [Outcome.stderr_eq, outcome, textOf_append, textOf_cons, Chunk.stderr_err]
  rw [split, split]
  have framed := (h.first.decorates.append hb).append h.last.decorates
  exact (isTame_textOf h.lead verbosity).decorates.append
    (framed.append (isTame_textOf h.tail verbosity).decorates)

end Frame

/-- The file of a command. -/
def Command.file? : Command → Option String
  | lex file | check file => some file
  | repl => none

/-- **Where the colours of an outcome show**: nowhere, or in the blocks of a file that is read. -/
inductive ShowsColours (read : String → Except ReadFailure ByteArray) (file? : Option String)
    (f : Bool → Outcome) : Prop
  | nowhere (same : ∀ coloured, f coloured = f false)
  | blocks {file source : String} (frame : Frame) (named : file? = some file)
      (reads : read file = .ok source.toUTF8)
      (framed : ∀ coloured, f coloured = frame.outcome (blocksOf file source coloured))
      (tame : IsTame file → frame.IsTame)

section

variable {read : String → Except ReadFailure ByteArray} {file? : Option String}
  {f : Bool → Outcome}

namespace ShowsColours

variable (h : ShowsColours read file? f) (coloured : Bool)

include h

theorem stdout_eq : (f coloured).stdout = (f false).stdout := by
  cases h with
  | nowhere same => rw [same]
  | blocks frame _ _ framed => rw [framed, framed, frame.stdout_outcome, frame.stdout_outcome]

theorem exit_eq : (f coloured).exit = (f false).exit := by
  cases h with
  | nowhere same => rw [same]
  | blocks frame _ _ framed => rw [framed, framed, frame.exit_outcome, frame.exit_outcome]

/-- **Colours are all that is added to the stream for errors**, if the name and the bytes of the file
hold no escape character. -/
theorem uncolour_eq (hfile : ∀ file ∈ file?, IsTame file)
    (hbytes : ∀ file ∈ file?, ∀ bytes, read file = .ok bytes → 0x1b ∉ bytes.toList)
    (verbosity : Nat) :
    uncolour ((f coloured).stderr verbosity).toList =
      uncolour ((f false).stderr verbosity).toList := by
  cases h with
  | nowhere same => rw [same]
  | @blocks file source frame named reads framed tame =>
    have hname : IsTame file := hfile file named
    have hsource : (Source.ofText file source).IsTame :=
      ⟨hname, isTame_of_bytesOf (hbytes file named _ reads)⟩
    have decorates (c : Bool) := (tame hname).decorates (decorates_blocksOf hsource c) verbosity
    rw [framed, framed, (decorates coloured).uncolour_eq, (decorates false).uncolour_eq]

end ShowsColours

variable {file activity : String}

/-- A command on a file shows its colours where it does so on a text. -/
theorem showsColours_onFile {f : Bool → String → Outcome}
    (h : ∀ source, (∀ coloured, f coloured source = f false source) ∨
      ∃ frame : Frame, (∀ coloured, f coloured source =
        frame.outcome (blocksOf file source coloured)) ∧ (IsTame file → frame.IsTame)) :
    ShowsColours read (some file) fun coloured => onFile activity file (read file) (f coloured) := by
  cases hb : (read file).bind decode with
  | error failure =>
    apply ShowsColours.nowhere
    intro coloured
    rw [onFile, onFile, hb]
  | ok source =>
    have hread : read file = .ok source.toUTF8 := by
      cases hr : read file with
      | error failure =>
        rw [hr] at hb
        cases hb
      | ok bytes =>
        rw [hr] at hb
        rw [eq_toUTF8_of_decode hb]
    rcases h source with same | ⟨frame, framed, tame⟩
    · apply ShowsColours.nowhere
      intro coloured
      rw [hread, onFile_of_text, onFile_of_text, same]
    · apply ShowsColours.blocks { frame with lead := announce activity file :: frame.lead } rfl hread
      · intro coloured
        rw [hread, onFile_of_text, framed]
        rfl
      · intro hfile
        have hframe := tame hfile
        refine ⟨?_, hframe.first, hframe.last, hframe.tail⟩
        exact List.forall_mem_cons.mpr ⟨isTame_announce activity file, hframe.lead⟩

/-- What `lex` writes around the blocks of its file: the log, the list, and line feeds. -/
def lexFrame (source : String) : Frame where
  lead := scanLog source ++ [.out (listing (scan source).tokens)]
  first := "\n"
  last := "\n"
  tail := []
  exit := .dataError

/-- What `check` writes around the blocks of its file: the log, and the number of the blocks. -/
def checkFrame (file source : String) : Frame where
  lead := scanLog source
  first := ""
  last := "\n"
  tail := [.err ("Found " ++ toString (scan source).report.toList.length ++ " error(s) in " ++
    file ++ "\n")]
  exit := .dataError

theorem isTame_lexFrame (source : String) : (lexFrame source).IsTame where
  lead chunk hchunk := by
    rcases List.mem_append.mp hchunk with hlog | hlist
    · exact isTame_of_mem_scanLog hlog
    · obtain rfl := List.mem_singleton.mp hlist
      exact (by decide : IsTame "")
  first := (by decide : IsTame "\n")
  last := (by decide : IsTame "\n")
  tail := nofun

theorem isTame_checkFrame (hfile : IsTame file) (source : String) :
    (checkFrame file source).IsTame where
  lead chunk := isTame_of_mem_scanLog
  first := (by decide : IsTame "")
  last := (by decide : IsTame "\n")
  tail chunk hchunk := by
    obtain rfl := List.mem_singleton.mp hchunk
    have hnumber : IsTame ("Found " ++ toString (scan source).report.toList.length) :=
      .append (by decide) (Text.isTame_toString _)
    exact ((hnumber.append (by decide)).append hfile).append (by decide)

/-- **Where the colours of a command show.** -/
theorem Command.showsColours_perform (command : Command) (input : ByteArray) :
    ShowsColours read command.file? fun coloured => command.perform coloured read input := by
  cases command with
  | lex file =>
    apply showsColours_onFile
    intro source
    by_cases h : (scan source).report.toList = []
    · left
      intro coloured
      rw [lexSource_of_clean h, lexSource_of_clean h]
    · right
      exact ⟨lexFrame source, fun _ => lexSource_of_faulty h, fun _ => isTame_lexFrame source⟩
  | check file =>
    apply showsColours_onFile
    intro source
    by_cases h : (scan source).report.toList = []
    · left
      intro coloured
      rw [checkSource_of_clean h, checkSource_of_clean h]
    · right
      refine ⟨checkFrame file source, ?_, fun hfile => isTame_checkFrame hfile source⟩
      intro coloured
      rw [checkSource_of_faulty h, Frame.outcome, checkFrame, String.empty_append]
  | repl => exact .nowhere fun _ => rfl

end

/-! ## Two runs of a command -/

/-- **A command without escape characters**: there is none in the name or the bytes of its file. -/
structure Command.IsTame (command : Command) (read : String → Except ReadFailure ByteArray) :
    Prop where
  file : ∀ file ∈ command.file?, Text.IsTame file
  bytes : ∀ file ∈ command.file?, ∀ bytes, read file = .ok bytes → 0x1b ∉ bytes.toList

/-- **Flags do not interfere with the results.** Let a command be called twice under any flags, with
the same files and the same input. Then the standard output and the exit are the same, also if the
file cannot be read. If the colours are the same and the second call logs everything, the stream for
errors of the first one is left by taking out the entries of the log with the levels that are not
logged at its verbosity; beyond three a verbosity means the same as three. If the verbosities are the
same, the streams for errors differ in colour sequences only, as long as no escape character stands
in the name or the bytes of the file; a session at the prompt is never coloured. -/
theorem flags_doNotInterfere {a b : List String} {v w : Nat} {c d : Bool} {command : Command}
    (read : String → Except ReadFailure ByteArray) (input : ByteArray)
    (ha : parse a = .ok (.run ⟨v, c⟩ command)) (hb : parse b = .ok (.run ⟨w, d⟩ command)) :
    (program a read input).stdout = (program b read input).stdout ∧
    (program a read input).exit = (program b read input).exit ∧
    (c = d → 3 ≤ w →
      (program b read input).stderr =
        textOf Chunk.written (command.perform c read input).chunks ∧
      (program a read input).stderr =
        textOf Chunk.written ((command.perform c read input).chunks.filter (Chunk.isKept v)) ∧
      (3 ≤ v → (program a read input).stderr = (program b read input).stderr)) ∧
    (v = w → command.IsTame read →
      uncolour (program a read input).stderr.toList =
        uncolour (program b read input).stderr.toList) := by
  have hshows : ShowsColours read command.file? fun coloured =>
      command.perform coloured read input := command.showsColours_perform input
  rw [program_eq read input ha, program_eq read input hb]
  refine ⟨?_, ?_, ?_, ?_⟩
  · exact (hshows.stdout_eq c).trans (hshows.stdout_eq d).symm
  · exact (hshows.exit_eq c).trans (hshows.exit_eq d).symm
  · rintro rfl hw
    have hfull {verbosity : Nat} (hle : 3 ≤ verbosity) :
        ((command.perform c read input).console verbosity).stderr =
          textOf Chunk.written (command.perform c read input).chunks :=
      textOf_stderr_of_le hle (command.perform c read input).chunks
    exact ⟨hfull hw, textOf_stderr_eq v (command.perform c read input).chunks,
      fun hv => (hfull hv).trans (hfull hw).symm⟩
  · rintro rfl htame
    exact (hshows.uncolour_eq c htame.file htame.bytes v).trans
      (hshows.uncolour_eq d htame.file htame.bytes v).symm

/-- A file with a stray character is checked under less verbosity, and without colours. -/
theorem flags_of_stray :
    parse ["-v", "check", "a.lox"] = .ok (.run ⟨1, true⟩ (.check "a.lox")) ∧
    parse ["check", "-vvv", "a.lox"] = .ok (.run ⟨3, true⟩ (.check "a.lox")) ∧
    parse ["--no-color", "check", "-v", "a.lox"] = .ok (.run ⟨1, false⟩ (.check "a.lox")) ∧
    (program ["-v", "check", "a.lox"] (fun _ => .ok "@".toUTF8) .empty).stderr =
      textOf Chunk.written ((checkFile "a.lox" (.ok "@".toUTF8) true).chunks.filter
        (Chunk.isKept 1)) ∧
    Command.IsTame (.check "a.lox") (fun _ => .ok "@".toUTF8) ∧
    uncolour (program ["-v", "check", "a.lox"] (fun _ => .ok "@".toUTF8) .empty).stderr.toList =
      uncolour (program ["--no-color", "check", "-v", "a.lox"] (fun _ => .ok "@".toUTF8)
        .empty).stderr.toList := by
  have hlow : parse ["-v", "check", "a.lox"] = .ok (.run ⟨1, true⟩ (.check "a.lox")) := by cbv
  have hhigh : parse ["check", "-vvv", "a.lox"] = .ok (.run ⟨3, true⟩ (.check "a.lox")) := by cbv
  have hplain : parse ["--no-color", "check", "-v", "a.lox"] =
      .ok (.run ⟨1, false⟩ (.check "a.lox")) := by cbv
  have htame : Command.IsTame (.check "a.lox") (fun _ => .ok "@".toUTF8) := by
    refine ⟨?_, ?_⟩
    · rintro file ⟨⟩
      decide
    · rintro file ⟨⟩ bytes ⟨⟩
      decide +kernel
  obtain ⟨-, -, verbosity, -⟩ := flags_doNotInterfere (fun _ => .ok "@".toUTF8) .empty hlow hhigh
  obtain ⟨-, -, -, colours⟩ := flags_doNotInterfere (fun _ => .ok "@".toUTF8) .empty hlow hplain
  exact ⟨hlow, hhigh, hplain, (verbosity rfl (by decide)).2.1, htame, colours rfl htame⟩

end Lox.CommandLine
