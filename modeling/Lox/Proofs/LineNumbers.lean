import Lox.Proofs.LineIndex
import Lox.Proofs.Visits
import Mathlib.Data.List.Infix

/-!
# Line numbers lead to lines

The scan counts lines on its way, and a source finds lines by byte offsets. Both agree: a number is
one more than the line feeds before the first character, and the line with this number, as long as
numbers do not wrap, shows what was found.

## Main definitions

* `Visit.CountsLines`: a visit whose finding has the line of its first character
* `Token.IsShownIn`, `Fault.IsShownIn`: what a line shows of a token or of a fault

## Main results

* `exists_pieces_getElem?`: the piece around a place in a text
* `Source.exists_line?_eq`: the line around a place in a source
* `scan_countsLines`: findings have the lines of their first characters, and these lines show them
-/

namespace Lox

open Text

/-! ## The line around a place -/

/-- The piece around a place in a text goes on up to the next separator. -/
theorem exists_pieces_getElem? (sep : Char) (before rest : List Char) :
    ∃ lead, (pieces sep (before ++ rest))[before.count sep]? =
      some (lead ++ rest.takeWhile (· ≠ sep)) := by
  induction before with
  | nil =>
    refine ⟨[], ?_⟩
    induction rest with
    | nil => rfl
    | cons c rest ih =>
      by_cases hc : c = sep
      · subst hc
        simp [pieces_cons_self]
      · obtain ⟨piece, more, hp, hp'⟩ := exists_pieces_cons hc rest
        simp only [List.nil_append, hp, hp', List.count_nil, List.getElem?_cons_zero,
          Option.some.injEq] at ih ⊢
        simp [ih, hc]
  | cons c before ih =>
    obtain ⟨lead, ih⟩ := ih
    by_cases hc : c = sep
    · subst hc
      exact ⟨lead, by simpa [pieces_cons_self] using ih⟩
    · obtain ⟨piece, more, hp, hp'⟩ := exists_pieces_cons hc (before ++ rest)
      rw [hp] at ih
      rw [List.cons_append, hp', List.count_cons_of_ne hc]
      cases hn : before.count sep with
      | zero =>
        rw [hn] at ih
        exact ⟨c :: lead, by simpa using ih⟩
      | succ n =>
        rw [hn] at ih
        exact ⟨lead, by simpa using ih⟩

/-- **The line around a place in a source** goes on up to the next line feed. -/
theorem Source.exists_line?_eq (source : Source) {before rest : List Char}
    (h : source.text.toList = before ++ rest)
    (hn : source.text.toList.count '\n' < UInt32.size - 1) :
    ∃ lead, source.line? (UInt32.ofNat (1 + before.count '\n')) =
      some (String.ofList
        (dropTrailing (· = '\r') (lead ++ rest.takeWhile (· ≠ '\n')))) := by
  obtain ⟨lead, hl⟩ := exists_pieces_getElem? '\n' before rest
  have hb : before.count '\n' ≤ source.text.toList.count '\n' := by
    rw [h, List.count_append]
    exact Nat.le_add_right _ _
  have ht : (UInt32.ofNat (1 + before.count '\n')).toNat = 1 + before.count '\n' :=
    UInt32.toNat_ofNat_of_lt' (by omega)
  have hne : UInt32.ofNat (1 + before.count '\n') ≠ 0 := by
    intro h0
    rw [h0, UInt32.toNat_zero] at ht
    omega
  refine ⟨lead, ?_⟩
  rw [source.line?_eq, if_neg hne, ht, Nat.add_sub_cancel_left, h, hl, Option.map_some]

/-! ## What a line shows -/

/-- What a line shows of a token: all of it, or its text up to the first line feed. -/
structure Token.IsShownIn (t : Token) (line : String) : Prop where
  whole : '\n' ∉ t.lexeme.toList → t.lexeme.toList <:+: line.toList
  start : '\n' ∈ t.lexeme.toList →
    dropTrailing (· = '\r') (t.lexeme.toList.takeWhile (· ≠ '\n')) <:+ line.toList

/-- What a line shows of a fault: the character that begins no token, or the quotation mark of the
string without end. -/
structure Fault.IsShownIn (f : Fault) (line : String) : Prop where
  unexpected : ∀ c, f.cause = .unexpected c → c ∈ line.toList
  unterminated : f.cause = .unterminated → '"' ∈ line.toList

theorem takeWhile_append_of_notMem {sep : Char} {text behind : List Char} (h : sep ∉ text) :
    (text ++ behind).takeWhile (· ≠ sep) = text ++ behind.takeWhile (· ≠ sep) :=
  List.takeWhile_append_of_pos (forall_ne_of_notMem h)

theorem takeWhile_append_of_mem {sep : Char} {text behind : List Char} (h : sep ∈ text) :
    (text ++ behind).takeWhile (· ≠ sep) = text.takeWhile (· ≠ sep) := by
  rw [List.takeWhile_append, if_neg]
  intro hl
  have := (List.takeWhile_prefix (· ≠ sep) (l := text)).eq_of_length hl
  rw [← this] at h
  simpa using List.mem_takeWhile_imp h

theorem dropTrailing_eq_self {p : Char → Bool} {text : List Char}
    (h : ∀ c ∈ text, p c = false) : dropTrailing p text = text := by
  rcases List.eq_nil_or_concat text with rfl | ⟨init, c, rfl⟩
  · rfl
  · rw [List.concat_eq_append] at h ⊢
    exact dropTrailing_append_of_neg (h c (by simp))

/-- A lexeme keeps its end if no character is dropped that shows: a letter, a digit, a point, a
quotation mark, or the end of a mark or an operator. -/
theorem IsLexeme.dropTrailing_eq {kind : Kind} {text : List Char} (h : IsLexeme kind text)
    {p : Char → Bool} (hletter : ∀ c, IsLetter c → p c = false)
    (hdigit : ∀ c, IsDigit c → p c = false) (hpoint : p '.' = false) (hquote : p '"' = false)
    (hs : ∀ entry ∈ symbols, dropTrailing p entry.1 = entry.1) : dropTrailing p text = text := by
  have word {text : List Char} (hw : IsWord text) : dropTrailing p text = text := by
    cases hw with
    | intro hl hps =>
      apply dropTrailing_eq_self
      intro c hc
      rcases List.mem_cons.mp hc with rfl | hc
      · exact hletter c hl
      · exact (hps c hc).elim (hletter c) (hdigit c)
  cases h with
  | symbol h => exact hs _ h
  | number h =>
    apply dropTrailing_eq_self
    intro c hc
    cases h with
    | whole _ hds => exact hdigit c (hds c hc)
    | fraction _ _ hds hes =>
      rcases List.mem_append.mp hc with hc | hc
      · exact hdigit c (hds c hc)
      · rcases List.mem_cons.mp hc with rfl | hc
        · exact hpoint
        · exact hdigit c (hes c hc)
  | string h =>
    cases h
    exact dropTrailing_append_of_neg hquote
  | identifier h _ => exact word h
  | keyword w => exact word (isWord_spelling w)

/-- A text that does not lose its end stays in a longer one. -/
theorem isInfix_dropTrailing {p : Char → Bool} {text : List Char} (hne : text ≠ [])
    (h : dropTrailing p text = text) (lead behind : List Char) :
    text <:+: dropTrailing p (lead ++ (text ++ behind)) := by
  have hp : text <+: dropTrailing p (text ++ behind) := by
    rw [dropTrailing_append, h]
    split
    · exact List.prefix_rfl
    · exact List.prefix_append _ _
  have hne' : dropTrailing p (text ++ behind) ≠ [] := fun h' =>
    hne (List.prefix_nil.mp (h' ▸ hp))
  rw [dropTrailing_append, if_neg hne']
  exact hp.isInfix.trans (List.suffix_append _ _).isInfix

theorem isSuffix_dropTrailing (p : Char → Bool) (lead text : List Char) :
    dropTrailing p text <:+ dropTrailing p (lead ++ text) := by
  rw [dropTrailing_append]
  split
  · next h =>
    rw [h]
    exact List.nil_suffix
  · exact List.suffix_append _ _

/-- **The line around a lexeme shows it.** -/
theorem isShownIn_of_isLexeme {t : Token} {lead behind : List Char}
    (h : IsLexeme t.kind t.lexeme.toList) :
    t.IsShownIn (String.ofList (dropTrailing (· = '\r')
      (lead ++ (t.lexeme.toList ++ behind).takeWhile (· ≠ '\n')))) := by
  constructor
  · intro hn
    rw [takeWhile_append_of_notMem hn, String.toList_ofList]
    have hkept : dropTrailing (· = '\r') t.lexeme.toList = t.lexeme.toList := by
      apply h.dropTrailing_eq
      · exact fun c hc => decide_eq_false fun heq => absurd (heq ▸ hc) (by decide)
      · exact fun c hc => decide_eq_false fun heq => absurd (heq ▸ hc) (by decide)
      · decide
      · decide
      · decide
    exact isInfix_dropTrailing h.ne_nil hkept _ _
  · intro hn
    rw [takeWhile_append_of_mem hn, String.toList_ofList]
    exact isSuffix_dropTrailing _ _ _

/-- The line around a character shows it, unless it ends the line. -/
theorem mem_line {c : Char} {lead behind : List Char} (hn : c ≠ '\n') (hr : c ≠ '\r') :
    c ∈ (String.ofList (dropTrailing (· = '\r')
      (lead ++ (c :: behind).takeWhile (· ≠ '\n')))).toList := by
  rw [String.toList_ofList]
  refine mem_dropTrailing (List.mem_append_right _ ?_) (by simp [hr])
  rw [List.takeWhile_cons_of_pos (by simp [hn])]
  exact List.mem_cons_self

/-! ## The lines of findings -/

/-- **A visit whose finding has the line of its first character**: one more than the line feeds
before it. The first character of a token is that of its lexeme; a fault is about a character that
begins no token or the quotation mark of a string without end. -/
structure Visit.CountsLines (v : Visit) : Prop where
  token : ∀ t, v.token? = some t →
    t.lexeme.toList <+: v.rest ∧ t.line = UInt32.ofNat (1 + v.before.count '\n')
  fault : ∀ f, v.fault? = some f →
    f.diagnostic.line = UInt32.ofNat (1 + v.before.count '\n') ∧
    ((∃ c, f.cause = .unexpected c ∧ v.rest.head? = some c) ∨
      (f.cause = .unterminated ∧ v.rest.head? = some '"'))

section

variable {source : String} {v : Visit}

theorem countsLines_of_mem_visits (h : v ∈ visits source) : v.CountsLines := by
  constructor
  · intro t ht
    obtain ⟨hs, -, hline⟩ := lexeme_of_token h ht
    refine ⟨?_, hline⟩
    rw [Visit.rest, hs]
    exact List.prefix_append _ _
  · intro f hf
    obtain ⟨hline, hcause⟩ := cause_of_fault h hf
    refine ⟨f.diagnostic_line.trans hline, ?_⟩
    rcases hcause with ⟨c, hs, hc⟩ | ⟨body, hs, hc⟩
    · exact Or.inl ⟨c, hc, by rw [Visit.rest, hs]; rfl⟩
    · exact Or.inr ⟨hc, by rw [Visit.rest, hs]; rfl⟩

/-- The line of a visited token shows it. -/
theorem exists_line_of_token (name : String) (hn : source.toList.count '\n' < UInt32.size - 1)
    (h : v ∈ visits source) {t : Token} (ht : v.token? = some t) :
    ∃ line, (Source.ofText name source).line? t.line = some line ∧ t.IsShownIn line := by
  obtain ⟨hs, hl, hline⟩ := lexeme_of_token h ht
  obtain ⟨lead, hlead⟩ :=
    (Source.ofText name source).exists_line?_eq (source_eq_of_mem_visits h) hn
  rw [← hline, Visit.rest, hs] at hlead
  exact ⟨_, hlead, isShownIn_of_isLexeme hl⟩

/-- The line of a visited fault shows it. -/
theorem exists_line_of_fault (name : String) (hn : source.toList.count '\n' < UInt32.size - 1)
    (h : v ∈ visits source) {f : Fault} (hf : v.fault? = some f) :
    ∃ line, (Source.ofText name source).line? f.diagnostic.line = some line ∧
      f.IsShownIn line := by
  obtain ⟨hline, hcause⟩ := cause_of_fault h hf
  obtain ⟨lead, hlead⟩ :=
    (Source.ofText name source).exists_line?_eq (source_eq_of_mem_visits h) hn
  have fits := fits_of_mem_visits h
  rw [← hline, Visit.rest] at hlead
  rw [Fault.diagnostic_line]
  refine ⟨_, hlead, ?_⟩
  rcases hcause with ⟨c, hs, hc⟩ | ⟨body, hs, hc⟩
  · -- blanks are no stray characters, so that this one is not cut off with the end of its line
    rw [hs] at fits ⊢
    have hspace : isSpace c = false := by
      cases fits with
      | stray hspace => exact hspace
    refine ⟨fun d hd => ?_, fun hd => ?_⟩
    · obtain rfl := Cause.unexpected.inj (hc.symm.trans hd)
      exact mem_line (by rintro rfl; exact absurd hspace (by decide))
        (by rintro rfl; exact absurd hspace (by decide))
    · cases hc.symm.trans hd
  · rw [hs]
    refine ⟨fun d hd => ?_, fun _ => mem_line (by decide) (by decide)⟩
    cases hc.symm.trans hd

end

/-- The last line is there, and shows the end of the source. -/
theorem exists_line_of_eof (name : String) {source : String}
    (hn : source.toList.count '\n' < UInt32.size - 1) :
    ∃ line, (Source.ofText name source).line?
        (UInt32.ofNat (1 + source.toList.count '\n')) = some line ∧
      (Token.eof (UInt32.ofNat (1 + source.toList.count '\n'))).IsShownIn line := by
  obtain ⟨lead, hl⟩ := (Source.ofText name source).exists_line?_eq
    (List.append_nil source.toList).symm hn
  exact ⟨_, hl, fun _ => List.nil_infix, nofun⟩

/-- **Findings have the lines of their first characters, and these lines show them.** The tokens
and faults of a scan are found in its visits, each on the line told by the line feeds before it; the
end of the source is on the line told by all of them. As long as line numbers do not wrap, the
source has a line with each of these numbers, the last one is the number of its lines, and the line
of a finding shows it. -/
theorem scan_countsLines (name source : String) :
    (scan source).tokens = (visits source).filterMap Visit.token? ++
        [Token.eof (UInt32.ofNat (1 + source.toList.count '\n'))] ∧
    (scan source).report.toList =
        ((visits source).filterMap Visit.fault?).map Fault.diagnostic ∧
    (∀ v ∈ visits source, source.toList = v.before ++ v.rest ∧ v.CountsLines) ∧
    (source.toList.count '\n' < UInt32.size - 1 →
      (UInt32.ofNat (1 + source.toList.count '\n')).toNat =
          (Source.ofText name source).lineCount ∧
      (∀ t ∈ (scan source).tokens, ∃ line,
        (Source.ofText name source).line? t.line = some line ∧ t.IsShownIn line) ∧
      ∀ f ∈ faults source, ∃ line,
        (Source.ofText name source).line? f.diagnostic.line = some line ∧
          f.IsShownIn line) := by
  refine ⟨?_, ?_, fun v hv => ⟨source_eq_of_mem_visits hv, countsLines_of_mem_visits hv⟩,
    fun hn => ⟨?_, ?_, ?_⟩⟩
  · rw [scan_tokens, tokens_eq_visits]
  · rw [scan_report, faults_eq_visits]
  · rw [UInt32.toNat_ofNat_of_lt' (by omega), Source.lineCount_eq, Nat.add_comm]
    rfl
  · intro t ht
    rw [scan_tokens, tokens_eq_visits] at ht
    rcases List.mem_append.mp ht with ht | ht
    · obtain ⟨v, hv, ht⟩ := List.mem_filterMap.mp ht
      exact exists_line_of_token name hn hv ht
    · obtain rfl := List.mem_singleton.mp ht
      exact exists_line_of_eof name hn
  · intro f hf
    rw [faults_eq_visits] at hf
    obtain ⟨v, hv, hf⟩ := List.mem_filterMap.mp hf
    exact exists_line_of_fault name hn hv hf

/-- A string that begins on the first line ends on the second, and so the stray character behind
it and the end are on the second line. -/
theorem lines_shown_behind_string :
    "\"a\r\nb\" @".toList.count '\n' < UInt32.size - 1 ∧
    (scan "\"a\r\nb\" @").tokens =
      [⟨.string, "\"a\r\nb\"", some (.string "a\r\nb"), 1⟩, Token.eof 2] ∧
    faults "\"a\r\nb\" @" = [⟨2, .unexpected '@'⟩] ∧
    (Source.ofText "two.lox" "\"a\r\nb\" @").line? 1 = some "\"a" ∧
    (Source.ofText "two.lox" "\"a\r\nb\" @").line? 2 = some "b\" @" ∧
    (∀ t ∈ (scan "\"a\r\nb\" @").tokens, ∃ line,
      (Source.ofText "two.lox" "\"a\r\nb\" @").line? t.line = some line ∧ t.IsShownIn line) ∧
    ∀ f ∈ faults "\"a\r\nb\" @", ∃ line,
      (Source.ofText "two.lox" "\"a\r\nb\" @").line? f.diagnostic.line = some line ∧
        f.IsShownIn line := by
  have few : "\"a\r\nb\" @".toList.count '\n' < UInt32.size - 1 := by decide
  obtain ⟨-, -, -, h⟩ := scan_countsLines "two.lox" "\"a\r\nb\" @"
  refine ⟨few, ?_, ?_, ?_, ?_, (h few).2⟩ <;> decide +kernel

end Lox
