import Lox.Proofs.Concatenation
import Lox.Proofs.LongestMatch
import Mathlib.Data.Set.List

/-!
# Printed lexemes scan back

Lexemes can be printed one behind the other if something keeps them apart: a blank, behind which
any mix of blanks and comments may stand. Whatever the lexemes are and whatever keeps them apart, a
scan of the printed text finds these lexemes and nothing else. The argument has one step for each
part of the text: a lexeme fits before a blank or the end of the text, and between two lexemes
nothing is found.

## Main definitions

* `IsTrivia`, `IsSeparator`: blanks and comments in any mix, and those that begin with a blank
* `Lexeme`, `Lexeme.token`: a lexeme of the grammar, and its token at a line
* `Layout`: lexemes with separators between them
* `Token.content`: what a token says wherever it stands
* `Rescans source joined`: a text from which the tokens of a source can be read again

## Main results

* `findingsFrom_cut_isTrivia`: nothing is found in blanks and comments
* `findingsFrom_cut_append_congr`: two texts behind a source in which the same is found
* `IsLexeme.fits`: a lexeme fits before a blank
* `findingsFrom_layout`: what is found in a layout
* `scan_layout`: a scan finds the lexemes of a layout, and those of any source again
-/

namespace Lox

/-! ## Texts between lexemes -/

/-- **Blanks and comments**, in any mix. A comment comes with the line feed that ends it. -/
inductive IsTrivia : List Char → Prop
  | nil : IsTrivia []
  | space {c : Char} {text : List Char} : c ∈ [' ', '\t', '\r', '\n'] → IsTrivia text →
      IsTrivia (c :: text)
  | comment {body text : List Char} : '\n' ∉ body → IsTrivia text →
      IsTrivia ('/' :: '/' :: body ++ '\n' :: text)

/-- **A text that keeps lexemes apart**: a blank, and any blanks and comments behind it. -/
inductive IsSeparator : List Char → Prop
  | intro {c : Char} {text : List Char} : c ∈ [' ', '\t', '\r', '\n'] → IsTrivia text →
      IsSeparator (c :: text)

theorem IsSeparator.isTrivia {text : List Char} (h : IsSeparator text) : IsTrivia text := by
  cases h with
  | intro hc ht => exact .space hc ht

/-- What is found in a source that begins with a segment that fits. -/
theorem findingsFrom_cut_of_fits {s : Segment} {behind : List Char} (h : s.Fits behind)
    (line : UInt32) :
    findingsFrom line (Segment.cut (s.text ++ behind)) = (s.finding? line).toList ++
      findingsFrom (lineAfter line s.text) (Segment.cut behind) := by
  rw [Segment.cut_append_of_fits h, findingsFrom_cons]

theorem findingsFrom_cut_space {c : Char} (hc : c ∈ [' ', '\t', '\r', '\n']) (line : UInt32)
    (behind : List Char) :
    findingsFrom line (Segment.cut (c :: behind)) =
      findingsFrom (lineAfter line [c]) (Segment.cut behind) := by
  have hs : Segment.Fits (.space c) behind := .space (Segment.isSpace_iff.mpr hc)
  exact findingsFrom_cut_of_fits hs line

/-- Nothing is found in a comment, and no line ends in it. -/
theorem findingsFrom_cut_comment_append {body behind : List Char} (hb : '\n' ∉ body)
    (hstop : Stops (· ≠ '\n') behind) (line : UInt32) :
    findingsFrom line (Segment.cut ('/' :: '/' :: body ++ behind)) =
      findingsFrom line (Segment.cut behind) := by
  have hs : Segment.Fits (.comment body) behind := .comment hb hstop
  have comment := findingsFrom_cut_of_fits hs line
  rwa [lineAfter_of_notMem (by simpa [Segment.text] using hb)] at comment

/-- **Nothing is found in blanks and comments.** -/
theorem findingsFrom_cut_isTrivia {text : List Char} (h : IsTrivia text) (line : UInt32)
    (behind : List Char) :
    findingsFrom line (Segment.cut (text ++ behind)) =
      findingsFrom (lineAfter line text) (Segment.cut behind) := by
  induction h generalizing line with
  | nil => rw [List.nil_append, lineAfter_nil]
  | @space c text hc _ ih =>
    rw [List.cons_append, findingsFrom_cut_space hc, ih, ← lineAfter_append]
    rfl
  | @comment body text hb _ ih =>
    have hs : Segment.Fits (.comment body) ('\n' :: (text ++ behind)) := .comment hb (stops_cons rfl)
    have comment := findingsFrom_cut_of_fits hs line
    rw [findingsFrom_cut_space (by decide), ih, ← lineAfter_append, ← lineAfter_append] at comment
    simpa [Segment.text, Segment.finding?] using comment

/-- **Two texts behind a source** in which the same is found. If its segments fit before both texts,
the same is found with the source before them; a comment at its end may go on with the texts. -/
theorem findingsFrom_cut_append_congr {source more other : List Char}
    (hfits : ∀ before s behind, Segment.cut source = before ++ s :: Segment.cut behind →
      s.Fits behind → (∀ own, s = .comment own → behind ≠ []) →
      s.Fits (behind ++ more) ∧ s.Fits (behind ++ other))
    (hfound : ∀ line, findingsFrom line (Segment.cut more) = findingsFrom line (Segment.cut other))
    (hcomment : ∀ own line, '\n' ∉ own →
      findingsFrom line (Segment.cut ('/' :: '/' :: own ++ more)) =
        findingsFrom line (Segment.cut ('/' :: '/' :: own ++ other)))
    (line : UInt32) : findingsFrom line (Segment.cut (source ++ more)) =
      findingsFrom line (Segment.cut (source ++ other)) := by
  fun_induction Segment.cut source generalizing line with
  | case1 => exact hfound line
  | case2 c rest ih =>
    have fits := Segment.fits_first c rest
    have split (text : List Char) : c :: rest ++ text =
        (Segment.first c rest).1.text ++ ((Segment.first c rest).2 ++ text) := by
      rw [← List.append_assoc, Segment.first_append]
    rw [split, split]
    generalize Segment.first c rest = first at *
    obtain ⟨s, behind⟩ := first
    by_cases hlast : ∃ own, s = .comment own ∧ behind = []
    · obtain ⟨own, rfl, rfl⟩ := hlast
      cases fits with
      | comment hown _ => exact hcomment own line hown
    · obtain ⟨fitsMore, fitsOther⟩ := hfits [] s behind rfl fits
        fun own hs hbehind => hlast ⟨own, hs, hbehind⟩
      rw [findingsFrom_cut_of_fits fitsMore, findingsFrom_cut_of_fits fitsOther, ih]
      intro before s' behind' hcut
      exact hfits (s :: before) s' behind' (congrArg (s :: ·) hcut)

/-! ## Lexemes and their tokens -/

/-- A lexeme of the grammar. -/
structure Lexeme where
  kind : Kind
  text : List Char
  isLexeme : IsLexeme kind text

namespace Lexeme

/-- The value of a lexeme: that of a number or of a string. -/
def literal (l : Lexeme) : Option Literal :=
  match l.kind with
  | .number => Literal.readNumber? l.text
  | .string => some (Literal.readString l.text)
  | _ => none

/-- **The token of a lexeme** at a line. -/
def token (line : UInt32) (l : Lexeme) : Token :=
  { kind := l.kind, lexeme := String.ofList l.text, literal := l.literal, line }

/-- The segment of a lexeme. -/
def segment (l : Lexeme) : Segment := .lexeme l.kind l.text

/-- **A lexeme gives its token.** -/
theorem finding?_segment (l : Lexeme) (line : UInt32) :
    l.segment.finding? line = some (.token (l.token line)) := by
  obtain ⟨kind, text, h⟩ := l
  cases kind with
  | number =>
    obtain ⟨d, hd⟩ := h.isNumber.exists_parse?
    simp [segment, Segment.finding?, token, literal, Literal.readNumber?, hd]
  | _ => rfl

end Lexeme

/-- A mark is alone, and an operator is alone or joined with a `=`. -/
theorem isKnown_of_mem_symbols : ∀ entry ∈ symbols, ∀ c ∈ entry.1.head?,
    entry = (['/'], .slash) ∨ (entry.1 = [c] ∧ Kind.ofMark? c = some entry.2) ∨
      (Kind.ofOperator? c).any (fun kinds => entry = ([c], kinds.1) ∨ entry = ([c, '='], kinds.2)) =
        true :=
  forall_head_symbols (by decide)

/-- **What may stand behind a lexeme**: nothing, or a blank. -/
def EndsLexeme (behind : List Char) : Prop := ∀ c ∈ behind.head?, c ∈ [' ', '\t', '\r', '\n']

theorem endsLexeme_nil : EndsLexeme [] := fun c hc => absurd hc (Option.not_mem_none c)

theorem EndsLexeme.stops {behind : List Char} (h : EndsLexeme behind) {p : Char → Bool}
    (hp : [' ', '\t', '\r', '\n'].any p = false) : Stops p behind :=
  fun c hc => Bool.eq_false_iff.mpr (List.any_eq_false.mp hp c (h c hc))

theorem IsSeparator.endsLexeme {text : List Char} (h : IsSeparator text) (behind : List Char) :
    EndsLexeme (text ++ behind) := by
  cases h with
  | intro hc _ =>
    rintro d ⟨⟩
    exact hc

theorem fits_symbol {kind : Kind} {text behind : List Char} (h : (text, kind) ∈ symbols)
    (hb : EndsLexeme behind) : (Segment.lexeme kind text).Fits behind := by
  obtain ⟨c, cs, rfl⟩ := List.exists_cons_of_ne_nil (mem_symbols_ne_nil _ h)
  rcases isKnown_of_mem_symbols _ h c rfl with heq | ⟨htext, hm⟩ | ho
  · obtain ⟨htext, rfl⟩ := Prod.mk.inj heq
    rw [htext]
    exact .slash (hb.stops (by decide))
  · obtain ⟨-, rfl⟩ := List.cons.inj htext
    exact .mark hm
  · obtain ⟨⟨alone, joined⟩, ho, heq⟩ := (Option.any_eq_true _ _).mp ho
    rcases of_decide_eq_true heq with heq | heq
    · obtain ⟨htext, rfl⟩ := Prod.mk.inj heq
      rw [htext]
      exact .alone ho (hb.stops (by decide))
    · obtain ⟨htext, rfl⟩ := Prod.mk.inj heq
      rw [htext]
      exact .joined ho

/-- **A lexeme fits before a blank** and before the end of the source. -/
theorem IsLexeme.fits {kind : Kind} {text behind : List Char} (h : IsLexeme kind text)
    (hb : EndsLexeme behind) : (Segment.lexeme kind text).Fits behind := by
  have word (hk : IsLexeme kind text) (hw : IsWord text) :
      (Segment.lexeme kind text).Fits behind := by
    obtain rfl : kind = Segment.wordKind text := hk.kind_unique (isLexeme_wordKind hw)
    cases hw with
    | intro hc hcs =>
      exact .word (isWordStart_iff.mpr hc) (fun d hd => isWordPart_iff.mpr (hcs d hd))
        (hb.stops (by decide))
  cases h with
  | symbol h => exact fits_symbol h hb
  | number h =>
    cases h with
    | whole hne hds =>
      refine .whole hne (forall_isDigit_iff.mpr hds) (hb.stops (by decide)) ?_
      rintro d after rfl
      exact absurd (hb '.' rfl) (by decide)
    | fraction hne hne' hds hes =>
      exact .fraction hne hne' (forall_isDigit_iff.mpr hds) (forall_isDigit_iff.mpr hes)
        (hb.stops (by decide))
  | string h =>
    cases h with
    | intro hq => exact .string hq
  | identifier h hr => exact word (.identifier h hr) h
  | keyword w => exact word (.keyword w) (isWord_spelling w)

theorem findingsFrom_cut_lexeme (l : Lexeme) {behind : List Char} (hb : EndsLexeme behind)
    (line : UInt32) :
    findingsFrom line (Segment.cut (l.text ++ behind)) =
      .token (l.token line) :: findingsFrom (lineAfter line l.text) (Segment.cut behind) := by
  have hf := findingsFrom_cut_of_fits (s := l.segment) (l.isLexeme.fits hb) line
  rw [l.finding?_segment] at hf
  exact hf

/-! ## Layouts -/

/-- A text that keeps two lexemes apart. -/
structure Separator where
  text : List Char
  isSeparator : IsSeparator text

/-- **Lexemes with separators between them.** There may be one more behind the last lexeme. -/
inductive Layout
  | nil
  | last (l : Lexeme)
  | cons (l : Lexeme) (s : Separator) (rest : Layout)

namespace Layout

/-- The printed text. -/
def text : Layout → List Char
  | nil => []
  | last l => l.text
  | cons l s rest => l.text ++ (s.text ++ rest.text)

/-- The lexemes, in order. -/
def lexemes : Layout → List Lexeme
  | nil => []
  | last l => [l]
  | cons l _ rest => l :: rest.lexemes

/-- The lexemes of a layout that is printed behind a text, each with all the text before it. -/
def places (before : List Char) : Layout → List (List Char × Lexeme)
  | nil => []
  | last l => [(before, l)]
  | cons l s rest => (before, l) :: rest.places (before ++ l.text ++ s.text)

/-- **The tokens of a layout**: those of its lexemes, each at the line told by the line feeds
before it. -/
def tokens (layout : Layout) : List Token :=
  (layout.places []).map fun p => p.2.token (UInt32.ofNat (1 + p.1.count '\n'))

theorem map_snd_places (before : List Char) (layout : Layout) :
    (layout.places before).map Prod.snd = layout.lexemes := by
  induction layout generalizing before with
  | nil => rfl
  | last l => rfl
  | cons l s rest ih => rw [places, List.map_cons, ih, lexemes]

end Layout

/-- **What is found in a layout** that is printed behind a text. -/
theorem findingsFrom_layout (before : List Char) (layout : Layout) :
    findingsFrom (UInt32.ofNat (1 + before.count '\n')) (Segment.cut layout.text) =
      (layout.places before).map fun p =>
        .token (p.2.token (UInt32.ofNat (1 + p.1.count '\n'))) := by
  induction layout generalizing before with
  | nil => rw [Layout.text, Segment.cut_nil]; rfl
  | last l =>
    have hf := findingsFrom_cut_lexeme l endsLexeme_nil (UInt32.ofNat (1 + before.count '\n'))
    rw [List.append_nil, Segment.cut_nil] at hf
    exact hf
  | cons l s rest ih =>
    rw [Layout.text, findingsFrom_cut_lexeme l (s.isSeparator.endsLexeme _),
      findingsFrom_cut_isTrivia s.isSeparator.isTrivia, lineAfter_ofNat, lineAfter_ofNat, ih]
    rfl

theorem findings_layout (layout : Layout) :
    findings (String.ofList layout.text) = layout.tokens.map Finding.token := by
  rw [findings, String.toList_ofList, Layout.tokens, List.map_map]
  exact findingsFrom_layout [] layout

theorem tokens_layout (layout : Layout) :
    tokens (String.ofList layout.text) =
      layout.tokens ++ [Token.eof (UInt32.ofNat (1 + layout.text.count '\n'))] := by
  rw [tokens, findings_layout, lastLine_eq, String.toList_ofList, List.filterMap_map]
  congr 1
  exact List.filterMap_some

theorem faults_layout (layout : Layout) : faults (String.ofList layout.text) = [] := by
  rw [faults, findings_layout, List.filterMap_map, List.filterMap_eq_nil_iff]
  exact fun _ _ => rfl

/-! ## The lexemes of a scan -/

/-- What a token says wherever it stands: its kind, its lexeme and its value. -/
def Token.content (t : Token) : Kind × String × Option Literal := (t.kind, t.lexeme, t.literal)

/-- What every token of a lexeme says. -/
def Lexeme.content (l : Lexeme) : Kind × String × Option Literal :=
  (l.kind, String.ofList l.text, l.literal)

/-- **A text from which the tokens of a source can be read again**, at whatever lines. -/
structure Rescans (source joined : String) : Prop where
  clean : (scan joined).report.toList = []
  content : (scan joined).tokens.map Token.content = (scan source).tokens.map Token.content

/-- A token that is visited says what a lexeme of the grammar says. -/
theorem exists_lexeme_of_token {source : String} {v : Visit} (hv : v ∈ visits source) {t : Token}
    (ht : v.token? = some t) : ∃ l : Lexeme, l.content = t.content := by
  obtain ⟨hs, hl, -⟩ := lexeme_of_token hv ht
  refine ⟨⟨t.kind, t.lexeme.toList, hl⟩, ?_⟩
  have hfound := found_of_mem_visits hv
  rw [hs, ← Lexeme.segment.eq_1 ⟨t.kind, t.lexeme.toList, hl⟩, Lexeme.finding?_segment] at hfound
  rw [Visit.token?, hfound] at ht
  exact congrArg Token.content (Option.some.inj ht)

/-- **What the tokens of a source say** is what lexemes of the grammar say, up to the end. -/
theorem exists_lexemes (source : String) : ∃ ls : List Lexeme,
    (tokens source).map Token.content = ls.map Lexeme.content ++ [(.eof, "", none)] := by
  have h : ((visits source).filterMap Visit.token?).map Token.content ∈
      Set.range (List.map Lexeme.content) := by
    rw [Set.range_list_map]
    intro content hc
    obtain ⟨t, ht, rfl⟩ := List.mem_map.mp hc
    obtain ⟨v, hv, ht⟩ := List.mem_filterMap.mp ht
    exact exists_lexeme_of_token hv ht
  obtain ⟨ls, hls⟩ := h
  refine ⟨ls, ?_⟩
  rw [tokens_eq_visits, List.map_append, ← hls]
  rfl

theorem map_content_tokens (layout : Layout) :
    layout.tokens.map Token.content = layout.lexemes.map Lexeme.content := by
  rw [Layout.tokens, List.map_map, ← Layout.map_snd_places [], List.map_map]
  rfl

/-- **A layout of the lexemes of a source** gives its tokens again. -/
theorem rescans_of_layout {source joined : String} (layout : Layout)
    (h : (tokens source).map Token.content =
      layout.lexemes.map Lexeme.content ++ [(.eof, "", none)])
    (ht : joined.toList = layout.text) : Rescans source joined := by
  obtain rfl : joined = String.ofList layout.text := by rw [← ht, String.ofList_toList]
  refine ⟨?_, ?_⟩
  · rw [scan_report, faults_layout]
    rfl
  · rw [scan_tokens, scan_tokens, h, tokens_layout, List.map_append, map_content_tokens]
    rfl

namespace Layout

/-- A single space. -/
def oneSpace : Separator := ⟨[' '], .intro (by decide) .nil⟩

/-- Lexemes with single spaces between them. -/
def spaced : List Lexeme → Layout
  | [] => nil
  | [l] => last l
  | l :: m :: ls => cons l oneSpace (spaced (m :: ls))

/-- Lexemes with a single space behind each. -/
def spacedOut : List Lexeme → Layout
  | [] => nil
  | l :: ls => cons l oneSpace (spacedOut ls)

theorem lexemes_spaced (ls : List Lexeme) : (spaced ls).lexemes = ls := by
  fun_induction spaced ls with
  | case1 => rfl
  | case2 l => rfl
  | case3 l m ls ih => rw [lexemes, ih]

theorem lexemes_spacedOut (ls : List Lexeme) : (spacedOut ls).lexemes = ls := by
  induction ls with
  | nil => rfl
  | cons l ls ih => rw [spacedOut, lexemes, ih]

theorem text_spaced (ls : List Lexeme) :
    (spaced ls).text = [' '].intercalate (ls.map Lexeme.text) := by
  fun_induction spaced ls with
  | case1 => rfl
  | case2 l => exact List.intercalate_singleton.symm
  | case3 l m ls ih =>
    rw [text, ih, List.map_cons, List.map_cons, List.map_cons, List.intercalate_cons_cons,
      List.append_assoc]
    rfl

theorem text_spacedOut (ls : List Lexeme) :
    (spacedOut ls).text = [' '].intercalate (ls.map Lexeme.text ++ [[]]) := by
  induction ls with
  | nil => rfl
  | cons l ls ih =>
    obtain ⟨t, ts, ht⟩ := List.exists_cons_of_ne_nil
      (List.append_ne_nil_of_right_ne_nil (ls.map Lexeme.text) (List.cons_ne_nil [] []))
    rw [spacedOut, text, ih, List.map_cons, List.cons_append, ht, List.intercalate_cons_cons,
      List.append_assoc]
    rfl

end Layout

/-- **A scan finds the lexemes of a layout**, each with its own kind and value, at the line told by
the line feeds before it; nothing is reported. In this way the lexemes of any source are found again
if they are joined with single spaces, with or without the empty lexeme of the end. -/
theorem scan_layout (layout : Layout) (source : String) :
    (scan (String.ofList layout.text)).tokens =
      layout.tokens ++ [Token.eof (UInt32.ofNat (1 + layout.text.count '\n'))] ∧
    (scan (String.ofList layout.text)).report.toList = [] ∧
    Rescans source (" ".intercalate (scan source).lexemes) ∧
    Rescans source (" ".intercalate (scan source).lexemes.dropLast) := by
  obtain ⟨ls, hls⟩ := exists_lexemes source
  have hlexemes : (scan source).lexemes.map String.toList = ls.map Lexeme.text ++ [[]] := by
    have h := congrArg (List.map fun content => content.2.1.toList) hls
    rw [List.map_append, List.map_map, List.map_map] at h
    rw [Scan.lexemes, scan_tokens, List.map_map]
    simpa [Function.comp_def, Token.content, Lexeme.content] using h
  refine ⟨?_, ?_, ?_, ?_⟩
  · rw [scan_tokens, tokens_layout]
  · rw [scan_report, faults_layout]
    rfl
  · apply rescans_of_layout (.spacedOut ls)
    · rw [Layout.lexemes_spacedOut, hls]
    · rw [String.toList_intercalate, hlexemes, Layout.text_spacedOut]
      rfl
  · apply rescans_of_layout (.spaced ls)
    · rw [Layout.lexemes_spaced, hls]
    · rw [String.toList_intercalate, List.map_dropLast, hlexemes, List.dropLast_concat,
        Layout.text_spaced]
      rfl

end Lox
