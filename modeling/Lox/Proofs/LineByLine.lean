import Lox.Proofs.Printing
import Lox.Proofs.Prompt

/-!
# A text read line by line

A session at the prompt scans the lines of its input one by one. If no string is left open on any of
them, that makes no difference: what is found in a text is what is found in its lines, except that
every line is the first one of its own scan. A return that does not belong to its line is a blank,
or the end of a comment.

## Main definitions

* `Finding.atFirst`: a finding as it is on the first line
* `shown`, `told`: the rows of the tokens and of the errors of a source, the errors at line 1
* `IsCutInto`: what the lines of a text are
* `Console.ReadsWhole`: what a session leaves that has read a text as if it were one source

## Main results

* `findings_append_return`: a return behind a source is of no effect
* `findings_of_hasLines`: what is found in a text is found in its lines
* `session_readsWhole`: a session reads a text as if it were one source
-/

namespace Lox

/-! ## A return behind a source -/

theorem findingsFrom_cut_append_return {source : List Char}
    (h : ∀ body, .unclosed body ∉ Segment.cut source) (line : UInt32) :
    findingsFrom line (Segment.cut (source ++ ['\r'])) =
      findingsFrom line (Segment.cut source) := by
  have hcongr : findingsFrom line (Segment.cut (source ++ ['\r'])) =
      findingsFrom line (Segment.cut (source ++ [])) := by
    refine findingsFrom_cut_append_congr (fun before s behind hcut fits hlast => ?_)
      (fun line => ?_) (fun own line hown => ?_) line
    · have hmem : s ∈ Segment.cut source := by simp [hcut]
      refine ⟨fits.append_blank (by decide) (fun body hs => h body (hs ▸ hmem))
        (fun own hs hbehind => absurd hbehind (hlast own hs)) [], ?_⟩
      rwa [List.append_nil]
    · rw [findingsFrom_cut_space (by decide), Segment.cut_nil]
      rfl
    · have hjoined : '\n' ∉ own ++ ['\r'] := by simpa using hown
      have joined := findingsFrom_cut_comment_append hjoined stops_nil line
      rw [List.append_nil] at joined
      exact joined.trans (findingsFrom_cut_comment_append hown stops_nil line).symm
  rwa [List.append_nil] at hcongr

/-- **A return behind a source is of no effect**, if all strings of the source end. -/
theorem findings_append_return {source : String} (h : ClosesStrings source) :
    findings (source ++ "\r") = findings source := by
  rw [findings, String.toList_append]
  exact findingsFrom_cut_append_return h.unclosed_notMem 1

theorem ClosesStrings.append_return {source : String} (h : ClosesStrings source) :
    ClosesStrings (source ++ "\r") := by
  rw [ClosesStrings, scan_report, faults, findings_append_return h]
  rwa [ClosesStrings, scan_report] at h

/-! ## Findings on the first line -/

/-- The finding as it is on the first line. -/
def Finding.atFirst : Finding → Finding
  | token t => token { t with line := 1 }
  | fault f => fault { f with line := 1 }

theorem Finding.atFirst_shift (lines : UInt32) (f : Finding) :
    (f.shift lines).atFirst = f.atFirst := by
  cases f <;> rfl

theorem Fault.diagnostic_atFirst (f : Fault) :
    ({ f with line := 1 } : Fault).diagnostic = f.diagnostic.withLine 1 := by
  obtain ⟨line, cause⟩ := f
  cases cause <;> rfl

/-- A line and the rest of a text, apart from the lines at which they are. -/
theorem map_atFirst_findings_append {a : String} (h : ClosesStrings a) (b : String) :
    (findings (a ++ "\n" ++ b)).map Finding.atFirst =
      (findings a).map Finding.atFirst ++ (findings b).map Finding.atFirst := by
  rw [findings_append_lineFeed h, List.map_append, List.map_map]
  congr 2
  exact funext fun f => f.atFirst_shift _

/-! ## Rows -/

/-- The rows of the tokens of a source, without that of its end. -/
def shown (source : String) : List String := (scan source).tokens.dropLast.map Token.text

/-- The rows of the errors of a source, each shown at line 1. -/
def told (source : String) : List String :=
  (scan source).report.toList.map fun d => (d.withLine 1).text

/-- A row of a token does not tell its line. -/
theorem shown_eq (source : String) : shown source =
    ((findings source).map Finding.atFirst).filterMap fun f => f.token?.map Token.text := by
  rw [shown, scan_tokens, tokens, List.dropLast_concat, List.map_filterMap, List.filterMap_map]
  congr 1
  funext f
  cases f <;> rfl

theorem told_eq (source : String) : told source =
    ((findings source).map Finding.atFirst).filterMap fun f =>
      f.fault?.map fun f => f.diagnostic.text := by
  rw [told, scan_report, faults, List.map_map, List.map_filterMap, List.filterMap_map]
  congr 1
  funext f
  cases f with
  | token t => rfl
  | fault f => exact congrArg some (congrArg Diagnostic.text f.diagnostic_atFirst.symm)

namespace CommandLine

/-! ## The lines of a text -/

/-- **The lines of a text.** -/
def IsCutInto (text : String) (lines : List String) : Prop :=
  HasLines '\n' '\r' text.toList (lines.map String.toList)

/-- **What is found in a text is found in its lines.** -/
theorem findings_of_hasLines {text : List Char} {lines : List (List Char)}
    (h : HasLines '\n' '\r' text lines) (closes : ∀ line ∈ lines, ClosesStrings (String.ofList line)) :
    (findings (String.ofList text)).map Finding.atFirst =
      lines.flatMap fun line => (findings (String.ofList line)).map Finding.atFirst := by
  induction h with
  | nil =>
    rw [findings, String.toList_ofList, Segment.cut_nil]
    rfl
  | last => rw [List.flatMap_singleton]
  | @feed line rest lines _ _ _ ih =>
    obtain ⟨hline, hlines⟩ := List.forall_mem_cons.mp closes
    have split : String.ofList (line ++ '\n' :: rest) =
        String.ofList line ++ "\n" ++ String.ofList rest := by
      simp [← String.toList_inj]
    rw [split, map_atFirst_findings_append hline, ih hlines, List.flatMap_cons]
  | @returnFeed line rest lines _ _ ih =>
    obtain ⟨hline, hlines⟩ := List.forall_mem_cons.mp closes
    have split : String.ofList (line ++ '\r' :: '\n' :: rest) =
        String.ofList line ++ "\r" ++ "\n" ++ String.ofList rest := by
      simp [← String.toList_inj]
    rw [split, map_atFirst_findings_append hline.append_return, findings_append_return hline,
      ih hlines, List.flatMap_cons]

section

variable {text : String} {lines : List String}

theorem IsCutInto.findings_eq (h : IsCutInto text lines)
    (closes : ∀ line ∈ lines, ClosesStrings line) :
    (findings text).map Finding.atFirst =
      lines.flatMap fun line => (findings line).map Finding.atFirst := by
  have found := findings_of_hasLines h <| by
    simpa only [List.forall_mem_map, String.ofList_toList] using closes
  simpa only [List.flatMap_map, String.ofList_toList] using found

/-- **The rows of a text are those of its lines**, whatever they tell of a finding but its line. -/
theorem IsCutInto.flatMap_rows (h : IsCutInto text lines)
    (closes : ∀ line ∈ lines, ClosesStrings line) {rows : String → List String}
    {row? : Finding → Option String}
    (hrows : ∀ source, rows source = ((findings source).map Finding.atFirst).filterMap row?) :
    lines.flatMap rows = rows text := by
  rw [hrows, h.findings_eq closes, List.filterMap_flatMap]
  congr 1
  exact funext hrows

theorem exists_isCutInto (text : String) : ∃ lines, IsCutInto text lines := by
  obtain ⟨lines, h⟩ := exists_hasLines '\n' '\r' text.toList
  refine ⟨lines.map String.ofList, ?_⟩
  have each : String.toList ∘ String.ofList = id := funext fun _ => String.toList_ofList
  rwa [IsCutInto, List.map_map, each, List.map_id]

end

/-! ## Sessions over a text -/

theorem rows_eq (text : String) :
    rows text = String.join ((shown text).map (· ++ "\n")) ++ "EOF  null\n" := by
  have ends : (scan text).tokens = (scan text).tokens.dropLast ++ [Token.eof (lastLine text)] := by
    rw [scan_tokens, tokens, List.dropLast_concat]
  rw [rows, ends, List.map_append, String.join_append, shown, List.map_map]
  rfl

theorem complaints_eq (text : String) :
    complaints text = String.join ((told text).map (· ++ "\n")) := by
  rw [complaints, told, List.map_map]
  congr 1
  exact List.map_congr_left fun d hd =>
    congrArg (· ++ "\n") (text_withLine_of_mem_report hd).symm

theorem IsCutInto.join_complaints {text : String} {lines : List String} (h : IsCutInto text lines)
    (closes : ∀ line ∈ lines, ClosesStrings line) :
    String.join (lines.map complaints) = String.join ((told text).map (· ++ "\n")) :=
  calc String.join (lines.map complaints)
    _ = String.join (lines.map fun line => String.join ((told line).map (· ++ "\n"))) :=
      congrArg String.join (List.map_congr_left fun line _ => complaints_eq line)
    _ = String.join ((lines.flatMap told).map (· ++ "\n")) := by
      rw [List.map_flatMap, join_flatMap]
    _ = String.join ((told text).map (· ++ "\n")) := by rw [h.flatMap_rows closes told_eq]

/-- **A session that has read a text as if it were one source.** Without the prompts and the rows of
the ends of the lines, the rows on the standard output are those of the tokens of the whole text.
The rows on the stream for errors are those of its errors, but all at line 1. -/
structure Console.ReadsWhole (console : Console) (verbosity : Nat) (text : String)
    (lines : List String) : Prop where
  stdout : console.stdout =
    String.join (lines.map fun line =>
      "> " ++ (String.join ((shown line).map (· ++ "\n")) ++ "EOF  null\n")) ++ "> " ++ "\n"
  tokens : lines.flatMap shown = (scan text).tokens.dropLast.map Token.text
  stderr : console.stderr =
    String.join (lines.map fun line =>
      logged verbosity line ++ String.join ((told line).map (· ++ "\n")))
  quiet : verbosity = 0 →
    console.stderr = String.join ((told text).map (· ++ "\n"))
  errors : lines.flatMap told = (scan text).report.toList.map fun d => (d.withLine 1).text
  exit : console.exit.code = 0

/-- **A session reads a text as if it were one source**, if every line of the text closes its
strings. -/
theorem session_readsWhole {arguments : List String} {v : Nat} {coloured : Bool}
    (read : String → Except ReadFailure ByteArray) (text : String)
    (harguments : parse arguments = .ok (.run ⟨v, coloured⟩ .repl)) :
    (∃ lines, IsCutInto text lines) ∧
      ∀ lines, IsCutInto text lines → (∀ line ∈ lines, ClosesStrings line) →
        (program arguments read text.toUTF8).ReadsWhole v text lines := by
  refine ⟨exists_isCutInto text, fun lines h closes => ?_⟩
  -- what is answered is a matter of the lines alone, the rest one of what is found in them
  have hinput : IsReadAs text.toUTF8 (lines.map bytesOf) := HasLines.bytesOf h
  have completes : (program arguments read text.toUTF8).Completes v lines := by
    rw [program_eq_replLines harguments hinput]
    exact completes_replLines (fun line hl => hinput.lineFeed_notMem (List.mem_map_of_mem hl)) v
  exact
    { stdout := by simpa only [rows_eq] using completes.stdout
      tokens := h.flatMap_rows closes shown_eq
      stderr := by simpa only [complaints_eq] using completes.stderr
      quiet := fun hv => (completes.quiet hv).trans (h.join_complaints closes)
      errors := h.flatMap_rows closes told_eq
      exit := completes.exit }

/-- Comments with a return behind them, a point before a digit of the next line, and an error. -/
theorem session_readsWhole_of_point_before_digit :
    parse ["repl"] = .ok (.run ⟨0, true⟩ .repl) ∧
      IsCutInto "// b\r\n@ 1.\r\n2 // c\r" ["// b", "@ 1.", "2 // c\r"] ∧
      (∀ line ∈ ["// b", "@ 1.", "2 // c\r"], ClosesStrings line) ∧
      (program ["repl"] (fun _ => .error .notFound)
        "// b\r\n@ 1.\r\n2 // c\r".toUTF8).ReadsWhole 0
          "// b\r\n@ 1.\r\n2 // c\r" ["// b", "@ 1.", "2 // c\r"] := by
  have harguments : parse ["repl"] = .ok (.run ⟨0, true⟩ .repl) := by cbv
  have lines : IsCutInto "// b\r\n@ 1.\r\n2 // c\r" ["// b", "@ 1.", "2 // c\r"] :=
    @HasLines.returnFeed _ _ _ "// b".toList _ _ (by decide) <|
      @HasLines.returnFeed _ _ _ "@ 1.".toList _ _ (by decide) <|
        @HasLines.last _ _ _ "2 // c\r".toList (by decide) (by decide)
  have closes : ∀ line ∈ ["// b", "@ 1.", "2 // c\r"], ClosesStrings line := by decide +kernel
  exact ⟨harguments, lines, closes, (session_readsWhole _ _ harguments).2 _ lines closes⟩

end CommandLine

end Lox
