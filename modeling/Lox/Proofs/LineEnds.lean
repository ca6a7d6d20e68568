import Lox.Diagnostic.Rendering
import Lox.Proofs.LineIndex
import Lox.Proofs.Printing
import Lox.Proofs.Readings

/-!
# Sources with other line ends

A line may end with a line feed alone or with a carriage return before it. A scan finds the same in
both forms of a source, only that the strings of the source keep the returns that are put into them;
and the index of a source has the same lines in both forms, so that all that is shown of a source is
the same too. A return can come to stand behind every segment of a source. It is a blank there, or
it belongs to the comment or to the string that is still going on.

## Main definitions

* `withReturns text`: a text with a carriage return before every line feed
* `Token.withReturns`: a token of the changed source

## Main results

* `Segment.Fits.withReturns`: the segments of a source that fit in the changed source
* `findingsFrom_cut_withReturns`: what is found in the changed source
* `Source.line?_returned`: the lines of the changed source
* `scan_returned`: a scan of the changed source, and what is shown of it
-/

namespace Lox

namespace Text

/-! ## Carriage returns before line feeds -/

/-- **A text with a carriage return before every line feed.** -/
def withReturns (text : List Char) : List Char :=
  text.flatMap fun c => if c = '\n' then ['\r', '\n'] else [c]

/-- A string with a carriage return before every line feed. -/
def returned (text : String) : String := String.ofList (withReturns text.toList)

variable {text : List Char} {c : Char}

@[simp] theorem withReturns_nil : withReturns [] = [] := rfl

theorem withReturns_lineFeed (text : List Char) :
    withReturns ('\n' :: text) = '\r' :: '\n' :: withReturns text := rfl

theorem withReturns_cons (hc : c ≠ '\n') (text : List Char) :
    withReturns (c :: text) = c :: withReturns text := by
  rw [withReturns, List.flatMap_cons, if_neg hc]
  rfl

@[simp] theorem withReturns_append (s t : List Char) :
    withReturns (s ++ t) = withReturns s ++ withReturns t :=
  List.flatMap_append

/-- A text on one line stays as it is. -/
theorem withReturns_eq_self (h : '\n' ∉ text) : withReturns text = text := by
  induction text with
  | nil => rfl
  | cons c text ih =>
    obtain ⟨hc, htext⟩ := not_or.mp (mt List.mem_cons.mpr h)
    rw [withReturns_cons (Ne.symm hc), ih htext]

theorem withReturns_quoted (body : List Char) :
    withReturns ('"' :: body ++ ['"']) = '"' :: withReturns body ++ ['"'] := by
  rw [withReturns_append, withReturns_cons (by decide)]
  rfl

/-- Only returns are new. -/
theorem mem_of_mem_withReturns (h : c ∈ withReturns text) (hc : c ≠ '\r') : c ∈ text := by
  obtain ⟨d, hd, hmem⟩ := List.mem_flatMap.mp h
  split at hmem
  · next hfeed =>
    subst hfeed
    rcases List.mem_cons.mp hmem with rfl | hmem
    · exact absurd rfl hc
    · exact List.mem_singleton.mp hmem ▸ hd
  · exact List.mem_singleton.mp hmem ▸ hd

theorem count_withReturns (text : List Char) :
    (withReturns text).count '\n' = text.count '\n' := by
  induction text with
  | nil => rfl
  | cons c text ih =>
    by_cases hc : c = '\n'
    · subst hc
      rw [withReturns_lineFeed, List.count_cons_of_ne (by decide), List.count_cons_self, ih,
        List.count_cons_self]
    · rw [withReturns_cons hc, List.count_cons_of_ne hc, List.count_cons_of_ne hc, ih]

end Text

open Text

/-! ## Segments of the changed source -/

theorem lineAfter_withReturns (line : UInt32) (text : List Char) :
    lineAfter line (withReturns text) = lineAfter line text := by
  rw [lineAfter, lineAfter, count_withReturns]

/-- A text that stops still does so if its first character has to make way for a return. -/
theorem Stops.withReturns {p : Char → Bool} {text : List Char} (h : Stops p text)
    (hp : p '\r' = false) : Stops p (withReturns text) := by
  cases text with
  | nil => exact stops_nil
  | cons c text =>
    by_cases hc : c = '\n'
    · subst hc
      exact stops_cons hp
    · rw [withReturns_cons hc]
      exact stops_cons (h c rfl)

/-- No digit follows a point at the beginning, since none did and a return is no digit. -/
theorem isDigit_eq_false_of_withReturns {text : List Char}
    (h : ∀ d after, text = '.' :: d :: after → d.isDigit = false) :
    ∀ d after, withReturns text = '.' :: d :: after → d.isDigit = false := by
  intro d after ht
  cases text with
  | nil => cases ht
  | cons c text =>
    by_cases hc : c = '\n'
    · subst hc
      cases ht
    rw [withReturns_cons hc] at ht
    obtain ⟨rfl, ht⟩ := List.cons.inj ht
    cases text with
    | nil => cases ht
    | cons e text =>
      by_cases he : e = '\n'
      · subst he
        cases ht
        rfl
      · rw [withReturns_cons he] at ht
        cases ht
        exact h d text rfl

namespace Segment

/-- The segment of the changed source that a segment becomes. Blanks stay what they are. -/
def withReturns : Segment → Segment
  | space c => space c
  | comment body => comment (Text.withReturns body)
  | lexeme kind chars => lexeme kind (Text.withReturns chars)
  | stray c => stray c
  | unclosed body => unclosed (Text.withReturns body)

/-- A segment on one line stays as it is. -/
theorem withReturns_eq_self {s : Segment} (h : '\n' ∉ s.text) : s.withReturns = s := by
  cases s with
  | space | stray => rfl
  | comment body =>
    have hb : '\n' ∉ body := fun hmem => h (by simp [text, hmem])
    rw [withReturns, Text.withReturns_eq_self hb]
  | lexeme kind chars =>
    have hchars : '\n' ∉ chars := h
    rw [withReturns, Text.withReturns_eq_self hchars]
  | unclosed body =>
    have hb : '\n' ∉ body := List.not_mem_of_not_mem_cons h
    rw [withReturns, Text.withReturns_eq_self hb]

/-- **A segment fits before the changed text** as well, unless it is a comment that a line feed
ends: the return before the line feed would belong to the comment. -/
theorem Fits.before_withReturns {s : Segment} {behind : List Char} (h : s.Fits behind)
    (hcomment : ∀ body, s = .comment body → behind = []) : s.Fits (Text.withReturns behind) := by
  cases h with
  | space hc => exact .space hc
  | comment hb hs =>
    obtain rfl := hcomment _ rfl
    exact .comment hb hs
  | slash hs => exact .slash (hs.withReturns rfl)
  | string hb => exact .string hb
  | unclosed hb => exact .unclosed hb
  | whole hne hds hs hp =>
    exact .whole hne hds (hs.withReturns rfl) (isDigit_eq_false_of_withReturns hp)
  | fraction hne hne' hds hes hs => exact .fraction hne hne' hds hes (hs.withReturns rfl)
  | word hc hcs hs => exact .word hc hcs (hs.withReturns rfl)
  | mark hm => exact .mark hm
  | joined ho => exact .joined ho
  | alone ho hs => exact .alone ho (hs.withReturns rfl)
  | stray hspace hslash hquote hdigit hletter hm ho =>
    exact .stray hspace hslash hquote hdigit hletter hm ho

/-- Of the lexemes only strings hold line feeds. -/
theorem Fits.lineFeed_notMem {kind : Kind} {chars behind : List Char}
    (h : (Segment.lexeme kind chars).Fits behind) (hk : kind ≠ .string) : '\n' ∉ chars := by
  intro hmem
  rcases h.slash_or_isSolid hk with ⟨rfl, -⟩ | hsolid
  · exact absurd hmem (by decide)
  · exact absurd (hsolid _ hmem).2 (by decide)

/-- **A segment becomes a segment of the changed source**, and its text is the changed text. Two
segments make way for a return: the line feed itself, and a comment that a line feed ends. -/
theorem Fits.withReturns {s : Segment} {behind : List Char} (h : s.Fits behind)
    (hspace : s ≠ .space '\n') (hcomment : ∀ body, s = .comment body → behind = []) :
    s.withReturns.Fits (Text.withReturns behind) ∧
      s.withReturns.text = Text.withReturns s.text := by
  have quote {body : List Char} (hb : '"' ∉ body) : '"' ∉ Text.withReturns body :=
    mt (fun hq => mem_of_mem_withReturns hq (by decide)) hb
  have same (hfeed : '\n' ∉ s.text) : s.withReturns.Fits (Text.withReturns behind) ∧
      s.withReturns.text = Text.withReturns s.text := by
    rw [withReturns_eq_self hfeed, Text.withReturns_eq_self hfeed]
    exact ⟨h.before_withReturns hcomment, rfl⟩
  cases s with
  | space c =>
    apply same
    intro hmem
    exact hspace (by rw [List.mem_singleton.mp hmem])
  | comment body =>
    cases h with
    | comment hb => exact same (by simp [text, hb])
  | lexeme kind chars =>
    by_cases hk : kind = .string
    · subst hk
      obtain ⟨hb⟩ := h.isLexeme.isQuoted
      rw [Segment.withReturns, withReturns_quoted]
      exact ⟨.string (quote hb), (withReturns_quoted _).symm⟩
    · exact same (h.lineFeed_notMem hk)
  | stray c =>
    cases h with
    | stray hc =>
      apply same
      intro hmem
      rw [← List.mem_singleton.mp hmem] at hc
      cases hc
  | unclosed body =>
    cases h with
    | unclosed hb => exact ⟨.unclosed (quote hb), (withReturns_cons (by decide) body).symm⟩

end Segment

/-! ## What is found in the changed source -/

/-- The value of a literal in the changed source. -/
def Literal.withReturns : Literal → Literal
  | number value => number value
  | string value => string (returned value)

/-- **A token of the changed source.** Only strings are changed. -/
def Token.withReturns (t : Token) : Token :=
  if t.kind = .string then
    { t with lexeme := returned t.lexeme, literal := t.literal.map Literal.withReturns }
  else t

/-- A finding in the changed source. -/
def Finding.withReturns : Finding → Finding
  | token t => token t.withReturns
  | fault f => fault f

theorem Token.withReturns_of_ne {t : Token} (h : t.kind ≠ .string) : t.withReturns = t := if_neg h

/-- What stands between the quotation marks is changed with them. -/
theorem readString_withReturns (body : List Char) :
    Literal.readString (Text.withReturns ('"' :: body ++ ['"'])) =
      (Literal.readString ('"' :: body ++ ['"'])).withReturns := by
  have inner (body : List Char) : ('"' :: body ++ ['"']).tail.dropLast = body := by simp
  rw [withReturns_quoted, Literal.readString, Literal.readString, inner, inner,
    Literal.withReturns, returned, String.toList_ofList]

theorem Segment.finding?_withReturns {s : Segment} {behind : List Char} (h : s.Fits behind)
    (line : UInt32) :
    s.withReturns.finding? line = (s.finding? line).map Finding.withReturns := by
  cases s with
  | space | comment | stray | unclosed => rfl
  | lexeme kind chars =>
    by_cases hk : kind = .string
    · subst hk
      obtain ⟨hb⟩ := h.isLexeme.isQuoted
      rename_i body
      show some (Finding.token _) = some (Finding.token (if Kind.string = Kind.string then _ else _))
      rw [if_pos rfl, readString_withReturns, returned, String.toList_ofList]
      rfl
    · have hself : (lexeme kind chars).withReturns = lexeme kind chars :=
        withReturns_eq_self (h.lineFeed_notMem hk)
      rw [hself]
      have hfinds : Finds line (.lexeme kind chars) ((lexeme kind chars).finding? line) :=
        h.finds line
      generalize (lexeme kind chars).finding? line = found at hfinds
      cases hfinds with
      | token => exact congrArg (some ∘ Finding.token) (Token.withReturns_of_ne hk).symm

/-- What is found in a segment is found in the segment that it becomes, and then what is found
behind it. -/
theorem findingsFrom_cut_of_withReturns {s : Segment} {behind : List Char} (h : s.Fits behind)
    (hspace : s ≠ .space '\n') (hcomment : ∀ body, s = .comment body → behind = [])
    (line : UInt32) :
    findingsFrom line (Segment.cut (Text.withReturns (s.text ++ behind))) =
      ((s.finding? line).map Finding.withReturns).toList ++
        findingsFrom (lineAfter line s.text) (Segment.cut (Text.withReturns behind)) := by
  obtain ⟨hfits, htext⟩ := h.withReturns hspace hcomment
  rw [withReturns_append, ← htext, findingsFrom_cut_of_fits hfits, Segment.finding?_withReturns h,
    htext, lineAfter_withReturns]

/-- A return before a line feed is a blank. -/
theorem findingsFrom_cut_lineFeed (line : UInt32) (behind : List Char) :
    findingsFrom line (Segment.cut (Text.withReturns ('\n' :: behind))) =
      findingsFrom line (Segment.cut ('\n' :: Text.withReturns behind)) := by
  rw [withReturns_lineFeed, findingsFrom_cut_space (by decide), lineAfter_of_notMem (by decide)]

/-- A return before the line feed that ends a comment belongs to the comment. -/
theorem findingsFrom_cut_comment {body : List Char} (hb : '\n' ∉ body) (line : UInt32)
    (behind : List Char) :
    findingsFrom line
        (Segment.cut (Text.withReturns ((Segment.comment body).text ++ '\n' :: behind))) =
      findingsFrom line (Segment.cut ('\n' :: Text.withReturns behind)) := by
  have hreturn : '\n' ∉ body ++ ['\r'] := by
    rw [List.mem_append, not_or]
    exact ⟨hb, by decide⟩
  have hself : Text.withReturns (Segment.comment body).text = (Segment.comment body).text :=
    Text.withReturns_eq_self (by simpa [Segment.text] using hb)
  have split : Text.withReturns ((Segment.comment body).text ++ '\n' :: behind) =
      '/' :: '/' :: (body ++ ['\r']) ++ '\n' :: Text.withReturns behind := by
    rw [withReturns_append, hself, withReturns_lineFeed]
    simp [Segment.text]
  rw [split, findingsFrom_cut_comment_append hreturn (stops_cons rfl)]

/-- **What is found in the changed source** is what is found in the source, strings changed. -/
theorem findingsFrom_cut_withReturns (source : List Char) (line : UInt32) :
    findingsFrom line (Segment.cut (Text.withReturns source)) =
      (findingsFrom line (Segment.cut source)).map Finding.withReturns := by
  fun_induction Segment.cut source generalizing line with
  | case1 =>
    rw [Text.withReturns_nil, Segment.cut_nil]
    rfl
  | case2 c rest ih =>
    have fits := Segment.fits_first c rest
    have split : c :: rest = (Segment.first c rest).1.text ++ (Segment.first c rest).2 :=
      (Segment.first_append c rest).symm
    rw [split]
    generalize Segment.first c rest = first at *
    obtain ⟨s, behind⟩ := first
    rw [findingsFrom_cons, List.map_append, ← ih]
    by_cases hspace : s = .space '\n'
    · subst hspace
      rw [Segment.text, List.singleton_append, findingsFrom_cut_lineFeed,
        findingsFrom_cut_space (by decide)]
      rfl
    by_cases hcomment : ∃ body, s = .comment body ∧ behind ≠ []
    · obtain ⟨body, rfl, hne⟩ := hcomment
      obtain ⟨d, after, rfl⟩ := List.exists_cons_of_ne_nil hne
      cases fits with
      | comment hb hs =>
        -- the line feed takes its return along, into the comment or to the blanks behind it
        obtain rfl : d = '\n' := by simpa using hs d rfl
        have htext : '\n' ∉ (Segment.comment body).text := by simpa [Segment.text] using hb
        rw [findingsFrom_cut_comment hb, lineAfter_of_notMem htext, findingsFrom_cut_lineFeed]
        rfl
    · rw [findingsFrom_cut_of_withReturns fits hspace (by simpa using hcomment)]
      cases s.finding? line <;> rfl

/-! ## A scan of the changed source -/

theorem findings_returned (source : String) :
    findings (returned source) = (findings source).map Finding.withReturns := by
  rw [findings, returned, String.toList_ofList, findingsFrom_cut_withReturns]
  rfl

theorem tokens_returned (source : String) :
    tokens (returned source) = (tokens source).map Token.withReturns := by
  have htoken : (fun f : Finding => f.withReturns.token?) =
      fun f => f.token?.map Token.withReturns := by
    funext f
    cases f <;> rfl
  rw [tokens, tokens, findings_returned, List.filterMap_map, List.map_append, List.map_filterMap,
    lastLine_eq, lastLine_eq, returned, String.toList_ofList, count_withReturns]
  exact congrArg (fun found => (findings source).filterMap found ++ _) htoken

theorem faults_returned (source : String) : faults (returned source) = faults source := by
  have hfault : (fun f : Finding => f.withReturns.fault?) = Finding.fault? := by
    funext f
    cases f <;> rfl
  rw [faults, faults, findings_returned, List.filterMap_map]
  exact congrArg (List.filterMap · _) hfault

/-! ## The lines of the changed source -/

/-- **The pieces between the line feeds** are the same but for the returns at their ends. -/
theorem map_dropTrailing_pieces_withReturns (text : List Char) :
    (pieces '\n' (Text.withReturns text)).map (dropTrailing (· = '\r')) =
      (pieces '\n' text).map (dropTrailing (· = '\r')) := by
  induction text with
  | nil => rfl
  | cons c text ih =>
    by_cases hc : c = '\n'
    · subst hc
      have hreturn : '\r' ≠ '\n' := by decide
      obtain ⟨piece, more, hp, hp'⟩ :=
        exists_pieces_cons hreturn ('\n' :: Text.withReturns text)
      rw [pieces_cons_self] at hp
      obtain ⟨rfl, rfl⟩ := List.cons.inj hp
      rw [withReturns_lineFeed, hp', pieces_cons_self, List.map_cons, List.map_cons, ih]
      rfl
    · rw [withReturns_cons hc]
      obtain ⟨piece, more, hp, hp'⟩ := exists_pieces_cons hc text
      obtain ⟨piece', more', hr, hr'⟩ := exists_pieces_cons hc (Text.withReturns text)
      rw [hp, hr, List.map_cons, List.map_cons] at ih
      obtain ⟨hfirst, hmore⟩ := List.cons.inj ih
      have hlonger (piece : List Char) : dropTrailing (· = '\r') (c :: piece) =
          if dropTrailing (· = '\r') piece = [] then dropTrailing (· = '\r') [c]
          else c :: dropTrailing (· = '\r') piece :=
        dropTrailing_append _ [c] piece
      rw [hp', hr', List.map_cons, List.map_cons, hmore, hlonger piece', hlonger piece, hfirst]

/-- **The lines of the changed source** are those of the source. -/
theorem Source.line?_returned (name text : String) (line : UInt32) :
    (Source.ofText name (returned text)).line? line = (Source.ofText name text).line? line := by
  have hpieces (text : String) :
      (Source.ofText name text).line? line = if line = 0 then none else
        (((pieces '\n' text.toList).map (dropTrailing (· = '\r')))[line.toNat - 1]?).map
          String.ofList := by
    rw [Source.line?_eq, List.getElem?_map, Option.map_map]
    rfl
  rw [hpieces, hpieces, returned, String.toList_ofList, map_dropTrailing_pieces_withReturns]

theorem Source.lineCount_returned (name text : String) :
    (Source.ofText name (returned text)).lineCount = (Source.ofText name text).lineCount := by
  rw [lineCount_eq, lineCount_eq]
  show (returned text).toList.count '\n' + 1 = _
  rw [returned, String.toList_ofList, count_withReturns]
  rfl

/-- A diagnostic is shown beside the same line. -/
theorem Diagnostic.render_returned (d : Diagnostic) (name text : String) (coloured : Bool) :
    d.render { source := some (.ofText name (returned text)), coloured } =
      d.render { source := some (.ofText name text), coloured } := by
  have hcontext : d.context (.ofText name (returned text)) = d.context (.ofText name text) := by
    rw [context, context, Source.line?_returned]
    rfl
  show write coloured (d.layout (some (.ofText name (returned text)))) = _
  rw [layout, hcontext]
  rfl

/-- **A scan of the changed source.** The tokens have the same kinds and lines, and the same lexemes
and values but for the strings, which are changed with the source. The diagnostics are the same. The
changed source has as many lines, and each is the same under its number, so that every diagnostic is
shown in the same way, whether it is of the scan or not, with colours and without. -/
theorem scan_returned (name source : String) :
    (scan (returned source)).tokens = (scan source).tokens.map Token.withReturns ∧
    (scan (returned source)).report.toList = (scan source).report.toList ∧
    (Source.ofText name (returned source)).lineCount = (Source.ofText name source).lineCount ∧
    (∀ line, (Source.ofText name (returned source)).line? line =
      (Source.ofText name source).line? line) ∧
    (∀ (d : Diagnostic) (coloured : Bool),
      d.render { source := some (.ofText name (returned source)), coloured } =
        d.render { source := some (.ofText name source), coloured }) ∧
    ∀ coloured : Bool,
      (scan (returned source)).report.render
          { source := some (.ofText name (returned source)), coloured } =
        (scan source).report.render { source := some (.ofText name source), coloured } := by
  have hreport : (scan (returned source)).report.toList = (scan source).report.toList := by
    rw [scan_report, scan_report, faults_returned]
  refine ⟨?_, hreport, Source.lineCount_returned name source, Source.line?_returned name source,
    fun d coloured => d.render_returned name source coloured, fun coloured => ?_⟩
  · rw [scan_tokens, scan_tokens, tokens_returned]
  · rw [Report.render, Report.render, hreport]
    exact congrArg ("\n".intercalate ·)
      (List.map_congr_left fun d _ => d.render_returned name source coloured)

end Lox
