import Lox.Diagnostic.Rendering
import Lox.Proofs.LineNumbers
import Lox.Proofs.Segmentation
import Lox.Source.Collection

/-!
# The blocks of a report

A diagnostic of a scan is rendered as a block of six lines. The line that it is about is always
there, and neither the name of the source nor a character of the source can add a line to the block
or take one away: a note quotes what it is about, and a line of the source holds no line feed. The
bars of a block stand below each other, however many digits the line number has.

## Main definitions

* `Block`, `Block.text`: six lines, and how they are written
* `Diagnostic.IsFramedBy`: the first and the last line of a block
* `Block.Shows`: the lines of the block of a diagnostic
* `Diagnostic.block`: a block with these lines

## Main results

* `Diagnostic.render_eq_text_block`: a diagnostic on a line of the source is rendered as its block
* `Diagnostic.shows_block`: its block shows it
* `exists_block_of_report`: every diagnostic of a scan is rendered as a block that shows it
-/

namespace Lox

open Text

/-! ## Blocks -/

/-- The six lines of a block. -/
structure Block where
  headline : String
  place : String
  /-- The empty line above the line of the source. -/
  above : String
  /-- The line of the source beside its number. -/
  shown : String
  /-- The empty line below the line of the source. -/
  below : String
  remark : String

namespace Block

/-- The lines, in order. -/
def lines (b : Block) : List String :=
  [b.headline, b.place, b.above, b.shown, b.below, b.remark]

/-- A block as it is written: a line feed ends every line. -/
def text (b : Block) : String := String.join (b.lines.map (· ++ "\n"))

end Block

/-- **What frames a block**: the headline with the code and the message, and the only remark. -/
inductive Diagnostic.IsFramedBy (d : Diagnostic) : String → String → Prop
  | note {note : String} : d.code.map Code.text = some "EL001" → d.notes = [note] → d.help = [] →
      IsFramedBy d ("error[EL001]: " ++ d.message) ("   = note: " ++ note)
  | help {help : String} : d.code.map Code.text = some "EL002" → d.notes = [] → d.help = [help] →
      IsFramedBy d ("error[EL002]: " ++ d.message) ("   = help: " ++ help)

/-- An empty line beside the bar. -/
def IsGutter (line : String) : Prop :=
  ∃ width, line.toList = List.replicate width ' ' ++ ['|']

/-- **A block shows a diagnostic** about a source with a name, where the line has a text. -/
structure Block.Shows (b : Block) (name : String) (d : Diagnostic) (text : String) : Prop where
  framed : d.IsFramedBy b.headline b.remark
  place : b.place = " --> " ++ name ++ ":" ++ toString d.line.toNat
  shown : b.shown = " " ++ toString d.line.toNat ++ " | " ++ text
  above : IsGutter b.above
  below : IsGutter b.below
  /-- The first bars of the three lines in the middle stand in one column. -/
  aligned : ∀ line ∈ [b.above, b.shown, b.below],
    line.toList.idxOf '|' = (toString d.line.toNat).length + 2
  /-- No line is broken. -/
  unbroken : ∀ line ∈ b.lines, '\n' ∉ line.toList

/-- An empty line with the bar beside a column for numbers of a width. -/
def gutterLine (width : Nat) : String :=
  String.ofList (List.replicate (width + 2) ' ' ++ ['|'])

/-- The block of a diagnostic between a headline and a remark, on a line with a text. -/
def Diagnostic.block (d : Diagnostic) (name text headline remark : String) : Block :=
  let number := toString d.line.toNat
  { headline
    place := " --> " ++ name ++ ":" ++ number
    above := gutterLine number.length
    shown := " " ++ number ++ " | " ++ text
    below := gutterLine number.length
    remark }

/-! ## How a block is written -/

namespace Diagnostic

theorem write_place (d : Diagnostic) (source : Source) :
    write false (d.place source) =
      " --> " ++ source.name ++ ":" ++ toString d.line.toNat ++ "\n" := by
  rw [← String.toList_inj]
  simp [place]

theorem write_gutter (number : String) :
    write false (gutter number) = gutterLine number.length ++ "\n" := by
  rw [← String.toList_inj, gutterLine, List.replicate_succ, List.replicate_succ']
  simp [gutter]

theorem write_snippet (number text : String) :
    write false (snippet number text) =
      gutterLine number.length ++ "\n" ++ (" " ++ number ++ " | " ++ text ++ "\n") ++
        (gutterLine number.length ++ "\n") := by
  rw [snippet, write_append, write_append, write_gutter, ← String.toList_inj]
  simp

theorem write_remark (style : Style) (label text : String) :
    write false (remark style label text) = "   = " ++ label ++ ": " ++ text ++ "\n" := by
  rw [← String.toList_inj]
  simp [remark]

section

variable {d : Diagnostic} {first last : String}

theorem IsFramedBy.write_headline (h : d.IsFramedBy first last) (hs : d.severity = .error) :
    write false d.headline = first ++ "\n" := by
  rw [← String.toList_inj]
  cases h with
  | note hc | help hc =>
    obtain ⟨code, hcode, htext⟩ := Option.map_eq_some_iff.mp hc
    simp [headline, hs, hcode, htext, Severity.name]

theorem IsFramedBy.write_remarks (h : d.IsFramedBy first last) :
    write false (d.notes.flatMap (remark .bold "note") ++
      d.help.flatMap (remark .green "help")) = last ++ "\n" := by
  cases h with
  | note _ hn hh =>
    rw [hn, hh, List.flatMap_singleton, List.flatMap_nil, List.append_nil, write_remark]
    rfl
  | help _ hn hh =>
    rw [hn, hh, List.flatMap_nil, List.flatMap_singleton, List.nil_append, write_remark]
    rfl

/-- **A diagnostic on a line of the source is rendered as its block.** -/
theorem render_eq_text_block {source : Source} {text : String} (hs : d.severity = .error)
    (hf : d.IsFramedBy first last) (hline : source.line? d.line = some text) :
    d.render ({ source := some source } : Rendering).withoutColours =
      (d.block source.name text first last).text := by
  have hl : d.layout (some source) = d.headline ++
      (d.place source ++ snippet (toString d.line.toNat) text) ++
      (d.notes.flatMap (remark .bold "note") ++ d.help.flatMap (remark .green "help")) := by
    simp [layout, context, hline]
  change write false (d.layout (some source)) = _
  rw [hl, write_append, write_append, write_append, hf.write_headline hs, write_place,
    write_snippet, hf.write_remarks, ← String.toList_inj]
  simp [block, Block.text, Block.lines]

end

end Diagnostic

/-! ## What a block shows -/

/-- A number is written with digits only. -/
theorem notMem_toString {c : Char} (hc : c.isDigit = false) (n : Nat) :
    c ∉ (toString n).toList := by
  intro h
  rw [Nat.toString_eq_repr, Nat.toList_repr] at h
  rw [Nat.isDigit_of_mem_toDigits (by decide) (by decide) h] at hc
  cases hc

theorem notMem_append {c : Char} {s t : String} (hs : c ∉ s.toList) (ht : c ∉ t.toList) :
    c ∉ (s ++ t).toList := by
  rw [String.toList_append, List.mem_append, not_or]
  exact ⟨hs, ht⟩

theorem idxOf_append_cons {c : Char} {lead rest : List Char} (h : c ∉ lead) :
    (lead ++ c :: rest).idxOf c = lead.length := by
  rw [List.idxOf_append_of_notMem h, List.idxOf_cons_self, Nat.add_zero]

/-- Spaces as wide as the number stand before the bar. -/
theorem idxOf_gutterLine (width : Nat) : (gutterLine width).toList.idxOf '|' = width + 2 := by
  rw [gutterLine, String.toList_ofList, idxOf_append_cons (by simp), List.length_replicate]

theorem isGutter_gutterLine (width : Nat) : IsGutter (gutterLine width) :=
  ⟨width + 2, String.toList_ofList⟩

theorem IsGutter.lineFeed_notMem {line : String} (h : IsGutter line) : '\n' ∉ line.toList := by
  obtain ⟨width, hline⟩ := h
  rw [hline]
  simp

/-- The number stands between two spaces before the bar. -/
theorem idxOf_shown {number : String} (h : '|' ∉ number.toList) (text : String) :
    (" " ++ number ++ " | " ++ text).toList.idxOf '|' = number.length + 2 := by
  have split : (" " ++ number ++ " | " ++ text).toList =
      (' ' :: number.toList ++ [' ']) ++ '|' :: ' ' :: text.toList := by simp
  rw [split, idxOf_append_cons (by simp [h])]
  simp [String.length_toList]

section

variable {d : Diagnostic} {name text first last : String}

/-- **The block of a diagnostic shows it**, if no part of it holds a line feed. -/
theorem Diagnostic.shows_block (hf : d.IsFramedBy first last) (hname : '\n' ∉ name.toList)
    (htext : '\n' ∉ text.toList) (hfirst : '\n' ∉ first.toList) (hlast : '\n' ∉ last.toList) :
    (d.block name text first last).Shows name d text := by
  refine ⟨hf, rfl, rfl, isGutter_gutterLine _, isGutter_gutterLine _, ?_, ?_⟩
  · have gutter := idxOf_gutterLine (toString d.line.toNat).length
    have shown := idxOf_shown (notMem_toString (by decide) d.line.toNat) text
    intro line hline
    simp only [List.mem_cons, List.not_mem_nil, or_false] at hline
    rcases hline with rfl | rfl | rfl
    · exact gutter
    · exact shown
    · exact gutter
  · have number : '\n' ∉ (toString d.line.toNat).toList := notMem_toString (by decide) _
    have place : '\n' ∉ (d.block name text first last).place.toList :=
      notMem_append (notMem_append (notMem_append (by decide) hname) (by decide)) number
    have gutter := (isGutter_gutterLine (toString d.line.toNat).length).lineFeed_notMem
    have shown : '\n' ∉ (d.block name text first last).shown.toList :=
      notMem_append (notMem_append (notMem_append (by decide) number) (by decide)) htext
    intro line hline
    simp only [Block.lines, List.mem_cons, List.not_mem_nil, or_false] at hline
    rcases hline with rfl | rfl | rfl | rfl | rfl | rfl
    · exact hfirst
    · exact place
    · exact gutter
    · exact shown
    · exact gutter
    · exact hlast

end

/-! ## The blocks of a scan -/

/-- A fault that a scan finds is framed by lines that are not broken, whatever it is about. -/
theorem Fault.exists_isFramedBy {f : Fault}
    (h : (∃ c, f.cause = .unexpected c) ∨ f.cause = .unterminated) :
    ∃ first last, f.diagnostic.IsFramedBy first last ∧
      '\n' ∉ first.toList ∧ '\n' ∉ last.toList := by
  obtain ⟨line, cause⟩ := f
  rcases h with ⟨c, rfl⟩ | rfl
  · have hq : '\n' ∉ (quoteChar c).toList := by
      intro hmem
      rw [quoteChar, String.toList_ofList] at hmem
      exact absurd (isControl_of_mem_quote (by decide) hmem) (by decide)
    refine ⟨_, _, .note (congrArg some (code_text_unexpected c)) rfl rfl, ?_, ?_⟩
    · change '\n' ∉ ("error[EL001]: " ++ "Unexpected character.").toList
      decide
    · exact notMem_append (by decide)
        (notMem_append (notMem_append (by decide) hq) (by decide))
  · refine ⟨_, _, .help (congrArg some code_text_unterminated) rfl rfl, ?_, ?_⟩
    · change '\n' ∉ ("error[EL002]: " ++ "Unterminated string.").toList
      decide
    · decide

/-- **Every diagnostic of a scan is rendered as a block that shows it.** The file is known under a
name on one line, and line numbers do not wrap. Then the line of the diagnostic is there and shows
what is wrong, and the rendering consists of six lines around it, whatever stands in the source. -/
theorem exists_block_of_report {sources : Sources} {id : UInt32} {name source : String}
    (hfile : sources.get? id = some (Source.ofText name source)) (hname : '\n' ∉ name.toList)
    (hn : source.toList.count '\n' < UInt32.size - 1) :
    ∀ d ∈ (scan source).report.toList, ∃ f ∈ faults source, ∃ (text : String) (b : Block),
      d = f.diagnostic ∧ IsLine source.toList d.line.toNat text.toList ∧ f.IsShownIn text ∧
      d.render ({ source := sources.get? id } : Rendering).withoutColours = b.text ∧
      b.Shows name d text := by
  intro d hd
  rw [scan_report] at hd
  obtain ⟨f, hf, rfl⟩ := List.mem_map.mp hd
  obtain ⟨v, hv, hvf⟩ := List.mem_filterMap.mp (faults_eq_visits source ▸ hf)
  obtain ⟨text, hline, hshown⟩ := exists_line_of_fault name hn hv hvf
  have hl : IsLine source.toList f.diagnostic.line.toNat text.toList :=
    Source.isLine_of_line? hline
  have htext : '\n' ∉ text.toList := by
    cases hl with
    | intro _ _ _ htext => exact htext
  have hcause : (∃ c, f.cause = .unexpected c) ∨ f.cause = .unterminated :=
    (cause_of_fault hv hvf).2.imp (fun ⟨c, _, hc⟩ => ⟨c, hc⟩) fun ⟨_, _, hc⟩ => hc
  obtain ⟨first, last, hframe, hfirst, hlast⟩ := Fault.exists_isFramedBy hcause
  refine ⟨f, hf, text, f.diagnostic.block name text first last, rfl, hl, hshown, ?_,
    Diagnostic.shows_block hframe hname htext hfirst hlast⟩
  rw [hfile]
  exact Diagnostic.render_eq_text_block (of_decide_eq_true f.diagnostic_isError) hframe hline

/-- The block of a stray character on the second line. -/
theorem exists_block_of_stray :
    ∃ d ∈ (scan "a\n@").report.toList, d.line = 2 ∧ ∃ (text : String) (b : Block),
      IsLine "a\n@".toList 2 text.toList ∧
      d.render ({ source := some (Source.ofText "two.lox" "a\n@") } : Rendering).withoutColours =
        b.text ∧
      b.Shows "two.lox" d text := by
  have hd : Fault.diagnostic ⟨2, .unexpected '@'⟩ ∈ (scan "a\n@").report.toList := by
    decide +kernel
  have hfile : (Sources.empty.add (Source.ofText "two.lox" "a\n@")).2.get? 0 =
      some (Source.ofText "two.lox" "a\n@") := rfl
  obtain ⟨_, -, text, b, -, hline, -, hrender, hshows⟩ :=
    exists_block_of_report hfile (by decide) (by decide) _ hd
  rw [hfile] at hrender
  exact ⟨_, hd, rfl, text, b, hline, hrender, hshows⟩

example :
    (Fault.diagnostic ⟨2, .unexpected '@'⟩).render
        ({ source := some (Source.ofText "two.lox" "a\n@") } : Rendering).withoutColours =
      "error[EL001]: Unexpected character.\n --> two.lox:2\n   |\n 2 | @\n   |\n" ++
        "   = note: found '@', which starts no token\n" := by
  decide +kernel

end Lox
