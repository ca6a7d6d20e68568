import Lox.Proofs.FirstSegment
import Lox.Proofs.Grammar
import Lox.Scan.Basic

/-!
# The visits of a scan

A scan visits the segments of a source one after the other. A visit knows the source before the
segment and behind it, and what is found in the segment; the findings of all visits are those of
the scan. What holds of every visit is what a scan does wherever it begins a segment.

## Main definitions

* `Visit`: a segment between the source before and behind it, with what is found in it
* `visits source`: the visits of the scan of a source, in order
* `Finds line s found`: what a scan finds in a segment that begins at a line

## Main results

* `filterMap_found_visits`: the scan finds what its visits find
* `flatMap_text_visits`: the visits cover the source
* `source_eq_of_mem_visits`: the source is what is before a visit and what is left at it
* `fits_of_mem_visits`: a visited segment fits before what is behind it
* `finds_of_mem_visits`: what a visit finds in a segment, at the line told by the line feeds
  before it
* `tokens_eq_visits`, `faults_eq_visits`: the tokens and faults of a source are those of its visits
* `lexeme_of_token`, `cause_of_fault`: what a visit is about that finds a token or a fault
-/

namespace Lox

/-- A step of a scan. -/
structure Visit where
  /-- The source before the segment. -/
  before : List Char
  segment : Segment
  /-- The source behind the segment. -/
  behind : List Char
  /-- What is found in the segment. -/
  found : Option Finding

/-- The source that is left where the segment begins. -/
def Visit.rest (v : Visit) : List Char := v.segment.text ++ v.behind

/-- The visits to segments that begin behind the text `before`, at a line. -/
def Segment.visits (before : List Char) (line : UInt32) : List Segment → List Visit
  | [] => []
  | s :: after =>
    { before, segment := s, behind := after.flatMap text, found := s.finding? line } ::
      Segment.visits (before ++ s.text) (lineAfter line s.text) after

/-- **The visits of a scan.** -/
def visits (source : String) : List Visit :=
  Segment.visits [] 1 (Segment.cut source.toList)

/-! ## Lines -/

@[simp] theorem lineAfter_nil (line : UInt32) : lineAfter line [] = line := by
  simp [lineAfter]

theorem lineAfter_of_notMem {text : List Char} (h : '\n' ∉ text) (line : UInt32) :
    lineAfter line text = line := by
  rw [lineAfter, List.count_eq_zero.mpr h]
  exact UInt32.add_zero line

theorem lineAfter_append (line : UInt32) (s t : List Char) :
    lineAfter line (s ++ t) = lineAfter (lineAfter line s) t := by
  simp [lineAfter, UInt32.ofNat_add, UInt32.add_assoc]

theorem lineAfter_one (text : List Char) :
    lineAfter 1 text = UInt32.ofNat (1 + text.count '\n') := by
  simp [lineAfter, UInt32.ofNat_add]

/-- The line behind a text that begins behind another one. -/
theorem lineAfter_ofNat (before text : List Char) :
    lineAfter (UInt32.ofNat (1 + before.count '\n')) text =
      UInt32.ofNat (1 + (before ++ text).count '\n') := by
  rw [← lineAfter_one, ← lineAfter_append, lineAfter_one]

/-- The last line is told by the line feeds of the source. -/
theorem lastLine_eq (source : String) :
    lastLine source = UInt32.ofNat (1 + source.toList.count '\n') := by
  have h : ∀ (line : UInt32) (ss : List Segment),
      ss.foldl (fun line s => lineAfter line s.text) line =
        lineAfter line (ss.flatMap Segment.text) := by
    intro line ss
    induction ss generalizing line with
    | nil => simp
    | cons s ss ih => rw [List.foldl_cons, ih, List.flatMap_cons, lineAfter_append]
  rw [lastLine, h, Segment.flatMap_text_cut, lineAfter_one]

/-! ## Visits and segments -/

theorem findingsFrom_cons (line : UInt32) (s : Segment) (ss : List Segment) :
    findingsFrom line (s :: ss) =
      (s.finding? line).toList ++ findingsFrom (lineAfter line s.text) ss := by
  simp only [findingsFrom, Segment.lines, List.filterMap_cons]
  cases s.finding? line <;> rfl

theorem findingsFrom_append (line : UInt32) (ss ts : List Segment) :
    findingsFrom line (ss ++ ts) =
      findingsFrom line ss ++ findingsFrom (lineAfter line (ss.flatMap Segment.text)) ts := by
  induction ss generalizing line with
  | nil => simp [findingsFrom, Segment.lines]
  | cons s ss ih =>
    rw [List.cons_append, findingsFrom_cons, ih, findingsFrom_cons, List.flatMap_cons,
      lineAfter_append, List.append_assoc]

theorem Segment.filterMap_found_visits (before : List Char) (line : UInt32) (ss : List Segment) :
    (visits before line ss).filterMap Visit.found = findingsFrom line ss := by
  induction ss generalizing before line with
  | nil => rfl
  | cons s ss ih =>
    rw [findingsFrom_cons, ← ih (before ++ s.text), visits, List.filterMap_cons]
    cases s.finding? line <;> rfl

/-- **The scan finds what its visits find.** -/
theorem filterMap_found_visits (source : String) :
    (visits source).filterMap Visit.found = findings source :=
  Segment.filterMap_found_visits _ _ _

theorem Segment.map_segment_visits (before : List Char) (line : UInt32) (ss : List Segment) :
    (visits before line ss).map Visit.segment = ss := by
  induction ss generalizing before line with
  | nil => rfl
  | cons s ss ih => simp [visits, ih]

theorem map_segment_visits (source : String) :
    (visits source).map Visit.segment = Segment.cut source.toList :=
  Segment.map_segment_visits _ _ _

/-- **The visits cover the source.** -/
theorem flatMap_text_visits (source : String) :
    (visits source).flatMap (fun v => v.segment.text) = source.toList := by
  rw [← List.flatMap_map, map_segment_visits, Segment.flatMap_text_cut]

/-- A visit is a place among the segments. -/
theorem Segment.eq_of_mem_visits {before : List Char} {line : UInt32} {ss : List Segment}
    {v : Visit} (h : v ∈ visits before line ss) :
    ∃ pre after, ss = pre ++ v.segment :: after ∧ v.before = before ++ pre.flatMap text ∧
      v.behind = after.flatMap text ∧
      v.found = v.segment.finding? (lineAfter line (pre.flatMap text)) := by
  induction ss generalizing before line with
  | nil => simp [visits] at h
  | cons s ss ih =>
    rcases List.mem_cons.mp h with rfl | h
    · exact ⟨[], ss, rfl, by simp, rfl, by simp⟩
    · obtain ⟨pre, after, rfl, hb, ha, hf⟩ := ih h
      refine ⟨s :: pre, after, rfl, ?_, ha, ?_⟩
      · rw [hb, List.flatMap_cons, List.append_assoc]
      · rw [hf, List.flatMap_cons, lineAfter_append]

/-- A place among the segments is visited. -/
theorem Segment.mem_visits (before : List Char) (line : UInt32) (pre : List Segment) (s : Segment)
    (after : List Segment) :
    { before := before ++ pre.flatMap text, segment := s, behind := after.flatMap text,
      found := s.finding? (lineAfter line (pre.flatMap text)) } ∈
      visits before line (pre ++ s :: after) := by
  induction pre generalizing before line with
  | nil => simp [visits]
  | cons p pre ih =>
    rw [List.flatMap_cons, ← List.append_assoc, lineAfter_append]
    exact List.mem_cons_of_mem _ (ih _ _)

section

variable {source : String} {v : Visit}

/-- **The source is what is before a visit and what is left at it.** -/
theorem source_eq_of_mem_visits (h : v ∈ visits source) : source.toList = v.before ++ v.rest := by
  obtain ⟨pre, after, hs, hb, ha, -⟩ := Segment.eq_of_mem_visits h
  rw [← Segment.flatMap_text_cut source.toList, hs, hb, Visit.rest, ha]
  simp

/-- **A visited segment fits before what is behind it.** -/
theorem fits_of_mem_visits (h : v ∈ visits source) : v.segment.Fits v.behind := by
  obtain ⟨pre, after, hs, -, ha, -⟩ := Segment.eq_of_mem_visits h
  exact ha ▸ Segment.fits_of_cut_eq hs

/-- **A visit counts the lines by the line feeds before it.** -/
theorem found_of_mem_visits (h : v ∈ visits source) :
    v.found = v.segment.finding? (UInt32.ofNat (1 + v.before.count '\n')) := by
  obtain ⟨pre, after, -, hb, -, hf⟩ := Segment.eq_of_mem_visits h
  rw [hf, lineAfter_one, hb, List.nil_append]

end

/-! ## What is found in a segment -/

theorem mark_mem_symbols {c : Char} {kind : Kind} (h : Kind.ofMark? c = some kind) :
    ([c], kind) ∈ symbols := by
  unfold Kind.ofMark? at h
  split at h <;> simp_all [symbols]

theorem operator_mem_symbols {c : Char} {alone joined : Kind}
    (h : Kind.ofOperator? c = some (alone, joined)) :
    ([c], alone) ∈ symbols ∧ ([c, '='], joined) ∈ symbols := by
  unfold Kind.ofOperator? at h
  split at h <;> simp_all [symbols]

/-- **A lexeme that is cut off is one of the grammar.** -/
theorem Segment.Fits.isLexeme {kind : Kind} {text behind : List Char}
    (h : (Segment.lexeme kind text).Fits behind) : IsLexeme kind text := by
  cases h with
  | slash => exact .symbol (by decide)
  | string hb => exact .string (.intro hb)
  | whole hne hds => exact .number (.whole hne (forall_isDigit_iff.mp hds))
  | fraction hne hne' hds hes =>
    exact .number (.fraction hne hne' (forall_isDigit_iff.mp hds) (forall_isDigit_iff.mp hes))
  | word hc hcs =>
    exact isLexeme_wordKind (.intro (isWordStart_iff.mp hc) fun d hd =>
      isWordPart_iff.mp (hcs d hd))
  | mark h => exact .symbol (mark_mem_symbols h)
  | joined h => exact .symbol (operator_mem_symbols h).2
  | alone h => exact .symbol (operator_mem_symbols h).1

/-- A value that belongs to a lexeme: numbers and strings have one, and that of a string stands
between its quotation marks. -/
structure IsValueOf (kind : Kind) (text : List Char) (literal : Option Literal) : Prop where
  isSome_iff : literal.isSome = true ↔ kind = .number ∨ kind = .string
  of_string : kind = .string → literal = some (Literal.readString text)

/-- **What a scan finds in a segment** at a line: a token in a lexeme, a fault in what is wrong,
and nothing in blanks and comments. -/
inductive Finds (line : UInt32) : Segment → Option Finding → Prop
  | token {kind : Kind} {text : List Char} {literal : Option Literal} : IsLexeme kind text →
      IsValueOf kind text literal →
      Finds line (.lexeme kind text)
        (some (.token { kind, lexeme := String.ofList text, literal, line }))
  | stray (c : Char) : Finds line (.stray c) (some (.fault ⟨line, .unexpected c⟩))
  | unclosed (body : List Char) :
      Finds line (.unclosed body) (some (.fault ⟨line, .unterminated⟩))
  | space (c : Char) : Finds line (.space c) none
  | comment (body : List Char) : Finds line (.comment body) none

/-- **A lexeme gives a token**, since every number can be read. -/
theorem finds_lexeme {kind : Kind} {text : List Char} (h : IsLexeme kind text) (line : UInt32) :
    Finds line (.lexeme kind text) ((Segment.lexeme kind text).finding? line) := by
  by_cases hn : kind = .number
  · subst hn
    obtain ⟨d, hd⟩ := h.isNumber.exists_parse?
    have hf : (Segment.lexeme .number text).finding? line = some (.token
        { kind := .number, lexeme := String.ofList text,
          literal := some (.number d.toBinary64), line }) := by
      simp [Segment.finding?, Literal.readNumber?, hd]
    rw [hf]
    exact .token h ⟨by simp, by simp⟩
  by_cases hq : kind = .string
  · subst hq
    exact .token h ⟨by simp, fun _ => rfl⟩
  · have hf : (Segment.lexeme kind text).finding? line = some (.token
        { kind, lexeme := String.ofList text, literal := none, line }) := by
      unfold Segment.finding?
      split <;> simp_all
    rw [hf]
    exact .token h ⟨by simp [hn, hq], fun h => absurd h hq⟩

theorem Segment.Fits.finds {s : Segment} {behind : List Char} (h : s.Fits behind)
    (line : UInt32) : Finds line s (s.finding? line) := by
  cases s with
  | space c => exact .space c
  | comment body => exact .comment body
  | lexeme kind text => exact finds_lexeme h.isLexeme line
  | stray c => exact .stray c
  | unclosed body => exact .unclosed body

/-- **What a visit finds.** Its line is told by the line feeds before it. -/
theorem finds_of_mem_visits {source : String} {v : Visit} (h : v ∈ visits source) :
    Finds (UInt32.ofNat (1 + v.before.count '\n')) v.segment v.found := by
  rw [found_of_mem_visits h]
  exact (fits_of_mem_visits h).finds _

/-! ## Tokens and faults of the visits -/

/-- The token that a visit finds. -/
def Visit.token? (v : Visit) : Option Token := v.found.bind Finding.token?

/-- The fault that a visit finds. -/
def Visit.fault? (v : Visit) : Option Fault := v.found.bind Finding.fault?

theorem tokens_eq_visits (source : String) :
    tokens source = (visits source).filterMap Visit.token? ++
      [Token.eof (UInt32.ofNat (1 + source.toList.count '\n'))] := by
  rw [tokens, lastLine_eq, ← filterMap_found_visits, List.filterMap_filterMap]
  rfl

theorem faults_eq_visits (source : String) :
    faults source = (visits source).filterMap Visit.fault? := by
  rw [faults, ← filterMap_found_visits, List.filterMap_filterMap]
  rfl

section

variable {source : String} {v : Visit}

/-- **A token is found in a lexeme**, of which it has the kind, the text and the line. -/
theorem lexeme_of_token (h : v ∈ visits source) {t : Token} (ht : v.token? = some t) :
    v.segment = .lexeme t.kind t.lexeme.toList ∧ IsLexeme t.kind t.lexeme.toList ∧
      t.line = UInt32.ofNat (1 + v.before.count '\n') := by
  obtain ⟨before, s, behind, found⟩ := v
  have hf : Finds (UInt32.ofNat (1 + before.count '\n')) s found := finds_of_mem_visits h
  cases hf with
  | token hl =>
    obtain rfl := Option.some.inj ht
    rw [String.toList_ofList]
    exact ⟨rfl, hl, rfl⟩
  | stray | unclosed | space | comment => cases ht

/-- **A fault is found in a stray character or in a string without end**, on the line where it
begins. -/
theorem cause_of_fault (h : v ∈ visits source) {f : Fault} (hf : v.fault? = some f) :
    f.line = UInt32.ofNat (1 + v.before.count '\n') ∧
      ((∃ c, v.segment = .stray c ∧ f.cause = .unexpected c) ∨
        ∃ body, v.segment = .unclosed body ∧ f.cause = .unterminated) := by
  obtain ⟨before, s, behind, found⟩ := v
  have hfinds : Finds (UInt32.ofNat (1 + before.count '\n')) s found := finds_of_mem_visits h
  cases hfinds with
  | stray c =>
    obtain rfl := Option.some.inj hf
    exact ⟨rfl, Or.inl ⟨c, rfl, rfl⟩⟩
  | unclosed body =>
    obtain rfl := Option.some.inj hf
    exact ⟨rfl, Or.inr ⟨body, rfl, rfl⟩⟩
  | token | space | comment => cases hf

end

end Lox
