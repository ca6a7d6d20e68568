import Lox.Proofs.Segmentation

/-!
# A scan takes the longest lexeme

Wherever a scan begins a segment, it takes the longest lexeme of the grammar that the rest of the
source begins with, unless that is a comment; and if the rest begins with no lexeme, a fault is
found or the character is a blank.

## Main definitions

* `reservedWords`: the reserved words as they are written
* `Token.Conforms`: a token whose kind and value are those of its lexeme
* `Visit.TakesLongest`: a visit that takes the longest lexeme

## Main results

* `le_length_of_stops`: a run of characters cannot be extended over the place where it stops
* `Segment.Fits.isLongest`: a lexeme that is cut off is the longest one
* `Segment.Fits.not_isLexeme`: before the other segments there is no lexeme
* `takesLongest_of_fits`: what is found in a segment is the longest lexeme
* `scan_takesLongest`: the visits cover the source, and each takes the longest lexeme
-/

namespace Lox

/-! ## Runs of characters -/

section Runs

variable {p : Char → Bool} {run other behind : List Char}

/-- **A run cannot be extended over the place where it stops.** -/
theorem le_length_of_stops (hs : Stops p behind) (ho : ∀ c ∈ other, p c = true)
    (h : other <+: run ++ behind) : other.length ≤ run.length := by
  rcases List.prefix_or_prefix_of_prefix h (List.prefix_append run behind) with h' | ⟨more, rfl⟩
  · exact h'.length_le
  · rw [List.prefix_append_right_inj] at h
    cases more with
    | nil => simp
    | cons c more =>
      obtain ⟨after, rfl⟩ := h
      have := hs c rfl
      simp [ho c (by simp)] at this

/-- Two runs that stop before the same character are the same. -/
theorem eq_of_stops {c : Char} {after : List Char} (hc : p c = false)
    (hr : ∀ d ∈ run, p d = true) (hs : Stops p behind) (ho : ∀ d ∈ other, p d = true)
    (h : other ++ c :: after <+: run ++ behind) : other = run ∧ c :: after <+: behind := by
  obtain ⟨more, hm⟩ := h
  have ht := congrArg (List.takeWhile p) hm
  rw [List.append_assoc, takeWhile_append_of_stops ho (fun d hd => by simp_all),
    takeWhile_append_of_stops hr hs] at ht
  subst ht
  rw [List.append_assoc, List.append_cancel_left_eq] at hm
  exact ⟨rfl, more, hm⟩

end Runs

/-! ## Marks and operators -/

/-- A mark or an operator is one character, or one that joins a `=` behind it. -/
theorem eq_of_mem_symbols : ∀ entry ∈ symbols, ∀ c ∈ entry.1.head?, entry.1 = [c] ∨
    (entry.1 = [c, '='] ∧ (Kind.ofOperator? c).isSome = true) :=
  forall_head_symbols (by decide)

theorem isSome_of_mem_symbols : ∀ entry ∈ symbols, ∀ c ∈ entry.1.head?, isSpace c = false ∧
    (c = '/' ∨ (Kind.ofMark? c).isSome = true ∨ (Kind.ofOperator? c).isSome = true) :=
  forall_head_symbols (by decide)

theorem ofOperator?_of_mem_symbols : ∀ entry ∈ symbols, ∀ c ∈ entry.1.head?,
    (Kind.ofMark? c).isSome = true ∨ c = '/' → Kind.ofOperator? c = none :=
  forall_head_symbols (by decide)

/-- A lexeme begins with the character that the rest of the source begins with. -/
theorem IsLexeme.exists_cons {kind : Kind} {text rest : List Char} {c : Char}
    (h : IsLexeme kind text) (hp : text <+: c :: rest) : ∃ cs, text = c :: cs ∧ cs <+: rest :=
  (List.prefix_cons_iff.mp hp).resolve_left h.ne_nil

/-- Where a mark or an operator begins, every lexeme is it alone or joined with a `=`. -/
theorem IsLexeme.eq_of_symbol {c : Char} {kind other : Kind} {text rest : List Char}
    (hs : ([c], kind) ∈ symbols) (h : IsLexeme other text) (hp : text <+: c :: rest) :
    text = [c] ∨ (text = [c, '='] ∧ (Kind.ofOperator? c).isSome = true) := by
  obtain ⟨hd, hl, hq⟩ := head_of_mem_symbols _ hs c rfl
  obtain ⟨cs, rfl, -⟩ := h.exists_cons hp
  exact eq_of_mem_symbols _ (h.symbol_of_other hd hl hq) c rfl

theorem isLongest_symbol {c : Char} {kind : Kind} {behind : List Char}
    (h : ([c], kind) ∈ symbols) (ho : Kind.ofOperator? c = none ∨ Stops (· = '=') behind) :
    IsLongest ([c] ++ behind) kind [c] := by
  refine ⟨.symbol h, List.prefix_append _ _, fun {other longer} hl hp => ?_⟩
  rcases hl.eq_of_symbol h hp with rfl | ⟨rfl, hs⟩
  · exact Nat.le_refl _
  · rcases ho with ho | ho
    · simp [ho] at hs
    · obtain ⟨after, rfl⟩ := (List.cons_prefix_cons.mp hp).2
      exact absurd (ho '=' rfl) (by simp)

theorem isLongest_joined {c : Char} {alone joined : Kind} {behind : List Char}
    (h : Kind.ofOperator? c = some (alone, joined)) :
    IsLongest ([c, '='] ++ behind) joined [c, '='] := by
  obtain ⟨ha, hj⟩ := operator_mem_symbols h
  refine ⟨.symbol hj, List.prefix_append _ _, fun {other longer} hl hp => ?_⟩
  rcases hl.eq_of_symbol ha hp with rfl | ⟨rfl, -⟩ <;> simp

/-! ## What is cut off is the longest lexeme -/

namespace Segment

theorem isLongest_word {c : Char} {cs behind : List Char} (hc : isWordStart c = true)
    (hcs : ∀ d ∈ cs, isWordPart d = true) (hs : Stops isWordPart behind) :
    IsLongest (c :: cs ++ behind) (wordKind (c :: cs)) (c :: cs) := by
  have hl : IsLetter c := isWordStart_iff.mp hc
  refine ⟨isLexeme_wordKind (.intro hl fun d hd => isWordPart_iff.mp (hcs d hd)),
    List.prefix_append _ _, fun {other longer} ho hp => ?_⟩
  obtain ⟨ds, rfl, -⟩ := ho.exists_cons hp
  refine le_length_of_stops hs (fun d hd => isWordPart_iff.mpr ?_) hp
  cases (ho.word_of_isLetter hl).1 with
  | intro _ hds =>
    rcases List.mem_cons.mp hd with rfl | hd
    · exact Or.inl hl
    · exact hds d hd

theorem isNumber_of_begins {kind : Kind} {text ds rest : List Char} (h : IsLexeme kind text)
    (hne : ds ≠ []) (hds : ∀ d ∈ ds, d.isDigit = true) (hp : text <+: ds ++ rest) :
    IsNumber text := by
  obtain ⟨d, ds, rfl⟩ := List.exists_cons_of_ne_nil hne
  obtain ⟨cs, rfl, -⟩ := h.exists_cons hp
  exact (h.number_of_isDigit (isDigit_iff.mp (hds d List.mem_cons_self))).2

theorem isLongest_whole {ds behind : List Char} (hne : ds ≠ [])
    (hds : ∀ d ∈ ds, d.isDigit = true) (hs : Stops Char.isDigit behind)
    (hpoint : ∀ d after, behind = '.' :: d :: after → d.isDigit = false) :
    IsLongest (ds ++ behind) .number ds := by
  refine ⟨.number (.whole hne (forall_isDigit_iff.mp hds)), List.prefix_append _ _,
    fun {other longer} ho hp => ?_⟩
  cases isNumber_of_begins ho hne hds hp with
  | whole _ hes => exact le_length_of_stops hs (forall_isDigit_iff.mpr hes) hp
  | fraction _ hne' hes hfs =>
    obtain ⟨-, hb⟩ := eq_of_stops (by decide) hds hs (forall_isDigit_iff.mpr hes) hp
    obtain ⟨f, fs, rfl⟩ := List.exists_cons_of_ne_nil hne'
    obtain ⟨after, rfl⟩ := hb
    have := hpoint f (fs ++ after) rfl
    rw [isDigit_iff.mpr (hfs f List.mem_cons_self)] at this
    cases this

theorem isLongest_fraction {ds es behind : List Char} (hne : ds ≠ []) (hne' : es ≠ [])
    (hds : ∀ d ∈ ds, d.isDigit = true) (hes : ∀ e ∈ es, e.isDigit = true)
    (hs : Stops Char.isDigit behind) :
    IsLongest (ds ++ '.' :: es ++ behind) .number (ds ++ '.' :: es) := by
  have hpoint : Stops Char.isDigit ('.' :: es ++ behind) := fun c hc => by
    obtain rfl : '.' = c := by simpa using hc
    decide
  refine ⟨.number (.fraction hne hne' (forall_isDigit_iff.mp hds) (forall_isDigit_iff.mp hes)),
    List.prefix_append _ _, fun {other longer} ho hp => ?_⟩
  rw [List.append_assoc] at hp
  cases isNumber_of_begins ho hne hds hp with
  | whole _ hfs =>
    have := le_length_of_stops hpoint (forall_isDigit_iff.mpr hfs) hp
    exact Nat.le_trans this (by simp)
  | fraction _ _ hfs hgs =>
    obtain ⟨rfl, hb⟩ := eq_of_stops (by decide) hds hpoint (forall_isDigit_iff.mpr hfs) hp
    have := le_length_of_stops hs (forall_isDigit_iff.mpr hgs) (List.cons_prefix_cons.mp hb).2
    simpa using this

theorem isLongest_string {body behind : List Char} (hb : '"' ∉ body) :
    IsLongest ('"' :: body ++ ['"'] ++ behind) .string ('"' :: body ++ ['"']) := by
  refine ⟨.string (.intro hb), List.prefix_append _ _, fun {other longer} ho hp => ?_⟩
  obtain ⟨cs, rfl, hcs⟩ := ho.exists_cons (by simpa using hp)
  obtain ⟨-, body', hb', rfl⟩ := ho.string_of_quote
  have hs : Stops (fun d => decide (d ≠ '"')) ('"' :: behind) := by
    rintro d ⟨⟩
    rfl
  have hq : decide ('"' ≠ '"') = false := rfl
  obtain ⟨rfl, -⟩ := eq_of_stops (c := '"') hq (forall_ne_of_notMem hb) hs
    (forall_ne_of_notMem hb') (by simpa using hcs)
  exact Nat.le_refl _

/-- **A lexeme that is cut off is the longest one** that the rest of the source begins with. -/
theorem Fits.isLongest {kind : Kind} {text behind : List Char}
    (h : (Segment.lexeme kind text).Fits behind) : IsLongest (text ++ behind) kind text := by
  cases h with
  | slash => exact isLongest_symbol (by decide) (Or.inl (by decide))
  | string hb => exact isLongest_string hb
  | whole hne hds hs hp => exact isLongest_whole hne hds hs hp
  | fraction hne hne' hds hes hs => exact isLongest_fraction hne hne' hds hes hs
  | word hc hcs hs => exact isLongest_word hc hcs hs
  | mark h =>
    have hm := mark_mem_symbols h
    have hnone := ofOperator?_of_mem_symbols _ hm _ rfl (Or.inl (by simp [h]))
    exact isLongest_symbol hm (Or.inl hnone)
  | joined h => exact isLongest_joined h
  | alone h hs => exact isLongest_symbol (operator_mem_symbols h).1 (Or.inr hs)

/-- **Before a blank, a stray character or a string without end there is no lexeme.** -/
theorem Fits.not_isLexeme {s : Segment} {behind : List Char} (h : s.Fits behind)
    (hs : s.isLexeme = false) (hc : ∀ body, s ≠ .comment body) {kind : Kind} {text : List Char}
    (hl : IsLexeme kind text) : ¬ text <+: s.text ++ behind := by
  intro hp
  -- in each case the lexeme would begin with the first character of the segment
  cases h with
  | slash | string | whole | fraction | word | mark | joined | alone => cases hs
  | comment => exact hc _ rfl
  | @space c _ hsp =>
    have other : ¬ IsDigit c ∧ ¬ IsLetter c ∧ c ≠ '"' := by
      simp only [isSpace, Bool.or_eq_true, decide_eq_true_eq] at hsp
      rcases hsp with ((rfl | rfl) | rfl) | rfl <;> decide
    obtain ⟨cs, rfl, -⟩ := hl.exists_cons hp
    have := isSome_of_mem_symbols _ (hl.symbol_of_other other.1 other.2.1 other.2.2) c rfl
    simp [hsp] at this
  | @stray c _ _ hslash hquote hd hw hm ho =>
    obtain ⟨cs, rfl, -⟩ := hl.exists_cons hp
    have := isSome_of_mem_symbols _ (hl.symbol_of_other (by simp [← isDigit_iff, hd])
      (by simp [← isWordStart_iff, hw]) hquote) c rfl
    simp [hslash, hm, ho] at this
  | @unclosed body hb =>
    obtain ⟨cs, rfl, -⟩ := hl.exists_cons hp
    obtain ⟨-, inner, -, rfl⟩ := hl.string_of_quote
    have hq : '"' ∈ body ++ [] := (List.cons_prefix_cons.mp hp).2.subset (by simp)
    exact hb (by simpa using hq)

/-- **Two slashes are a comment.** -/
theorem Fits.eq_comment {s : Segment} {behind : List Char} (h : s.Fits behind)
    (hp : ['/', '/'] <+: s.text ++ behind) : ∃ body, s = .comment body := by
  have head : ∀ {c : Char} {cs : List Char}, s.text = c :: cs → '/' = c := fun hc => by
    rw [hc] at hp
    exact (List.cons_prefix_cons.mp hp).1
  cases h with
  | comment => exact ⟨_, rfl⟩
  | space hc => cases head rfl; cases hc
  | slash hs =>
    obtain ⟨after, rfl⟩ := (List.cons_prefix_cons.mp hp).2
    exact absurd (hs '/' rfl) (by simp)
  | string | unclosed => exact absurd (head rfl) (by decide)
  | whole hne hds | fraction hne _ hds =>
    obtain ⟨d, ds, rfl⟩ := List.exists_cons_of_ne_nil hne
    cases head rfl
    exact absurd (hds '/' List.mem_cons_self) (by decide)
  | word hc => cases head rfl; exact absurd hc (by decide)
  | mark h => cases head rfl; cases h
  | joined h | alone h => cases head rfl; cases h
  | stray _ hc => exact absurd (head rfl).symm hc

end Segment

/-! ## The kind and the value of a token -/

/-- The reserved words as they are written. -/
def reservedWords : List String :=
  ["and", "class", "else", "false", "fun", "for", "if", "nil", "or", "print", "return", "super",
   "this", "true", "var", "while"]

theorem mem_reservedWords {text : List Char} :
    String.ofList text ∈ reservedWords ↔ ∃ w : Keyword, text = w.spelling.toList := by
  have h : reservedWords = Keyword.all.map Keyword.spelling := rfl
  simp [h, Keyword.mem_all, String.ext_iff, eq_comm]

theorem Kind.exists_keyword {kind : Kind} (h : kind.isKeyword = true) :
    ∃ w, kind = .keyword w := by
  cases kind with
  | keyword w => exact ⟨w, rfl⟩
  | _ => cases h

/-- **A token whose kind and value are those of its lexeme.** -/
structure Token.Conforms (t : Token) : Prop where
  isKeyword_iff : t.kind.isKeyword = true ↔ t.lexeme ∈ reservedWords
  name_of_isKeyword : t.kind.isKeyword = true →
    t.kind.name = String.ofList (t.lexeme.toList.map Char.toUpper)
  identifier_iff : t.kind = .identifier ↔ IsWord t.lexeme.toList ∧ t.lexeme ∉ reservedWords
  literal_iff : t.literal.isSome = true ↔ t.kind = .number ∨ t.kind = .string
  literal_of_string : t.kind = .string →
    t.literal = some (.string (String.ofList t.lexeme.toList.tail.dropLast))

theorem IsLexeme.notMem_reservedWords {text : List Char} (h : IsLexeme .identifier text) :
    String.ofList text ∉ reservedWords := by
  intro hm
  obtain ⟨w, hw⟩ := mem_reservedWords.mp hm
  exact h.admits.2 w hw.symm

/-- **A lexeme with its value is a token that conforms to it.** -/
theorem conforms_of_isLexeme {kind : Kind} {text : List Char} {literal : Option Literal}
    {line : UInt32} (h : IsLexeme kind text) (hv : IsValueOf kind text literal) :
    ({ kind, lexeme := String.ofList text, literal, line } : Token).Conforms := by
  have keyword : ∀ {w : Keyword}, kind = .keyword w → text = w.spelling.toList := by
    rintro w rfl
    exact h.admits
  refine
    { isKeyword_iff := ⟨fun hk => ?_, fun hm => ?_⟩
      name_of_isKeyword := fun hk => ?_
      identifier_iff := ⟨fun hk => ?_, fun ⟨hw, hr⟩ => ?_⟩
      literal_iff := hv.isSome_iff
      literal_of_string := fun hk => ?_ }
  · obtain ⟨w, rfl⟩ := Kind.exists_keyword hk
    exact mem_reservedWords.mpr ⟨w, keyword rfl⟩
  · obtain ⟨w, rfl⟩ := mem_reservedWords.mp hm
    rw [h.kind_unique (.keyword w)]
    rfl
  · obtain ⟨w, rfl⟩ := Kind.exists_keyword hk
    show Kind.name (.keyword w) = _
    rw [keyword rfl, String.ofList_toList, Kind.name]
  · obtain rfl : kind = .identifier := hk
    rw [String.toList_ofList]
    exact ⟨h.admits.1, h.notMem_reservedWords⟩
  · rw [String.toList_ofList] at hw
    exact h.kind_unique (.identifier hw fun w hs => hr (mem_reservedWords.mpr ⟨w, hs.symm⟩))
  · rw [String.toList_ofList]
    exact hv.of_string hk

/-! ## Every visit takes the longest lexeme -/

/-- **A visit that takes the longest lexeme** of the grammar that the rest of the source begins
with. Two slashes win over the lexeme of one, and where no lexeme begins a fault is found, unless
there is a blank. -/
structure Visit.TakesLongest (v : Visit) : Prop where
  comment : ['/', '/'] <+: v.rest → v.found = none ∧ ∃ body, v.segment = .comment body
  token : ¬ ['/', '/'] <+: v.rest → (∃ kind text, IsLexeme kind text ∧ text <+: v.rest) →
    ∃ t, v.found = some (.token t) ∧ v.rest = t.lexeme.toList ++ v.behind ∧
      IsLongest v.rest t.kind t.lexeme.toList ∧ t.Conforms
  fault : (∀ kind text, IsLexeme kind text → ¬ text <+: v.rest) →
    (∀ c ∈ v.rest.head?, c ≠ ' ' ∧ c ≠ '\t' ∧ c ≠ '\r' ∧ c ≠ '\n') →
    ∃ f, v.found = some (.fault f)

theorem takesLongest_of_fits {line : UInt32} {s : Segment} {before behind : List Char}
    {found : Option Finding} (h : s.Fits behind) (hf : Finds line s found) :
    Visit.TakesLongest { before, segment := s, behind, found } := by
  constructor
  · intro hp
    obtain ⟨body, rfl⟩ := h.eq_comment hp
    cases hf
    exact ⟨rfl, body, rfl⟩
  · rintro hn ⟨kind, text, hl, hp⟩
    cases hf with
    | token hl' hv =>
      refine ⟨_, rfl, ?_, ?_, conforms_of_isLexeme hl' hv⟩
      · rw [String.toList_ofList]
        rfl
      · rw [String.toList_ofList]
        exact h.isLongest
    | comment body => exact absurd (List.prefix_append ['/', '/'] (body ++ behind)) hn
    | stray | unclosed | space => exact absurd hp (h.not_isLexeme rfl (by simp) hl)
  · intro hn hblank
    cases hf with
    | token hl => exact absurd (List.prefix_append _ behind) (hn _ _ hl)
    | stray | unclosed => exact ⟨_, rfl⟩
    | space c =>
      obtain ⟨h₁, h₂, h₃, h₄⟩ := hblank c rfl
      rcases h.isShaped with hc | hc | hc | hc <;> contradiction
    | comment body =>
      exact absurd (List.prefix_append ['/'] _) (hn .slash ['/'] (.symbol (by decide)))

/-- **Every visit takes the longest lexeme.** The visits cover the source, one segment behind the
other, and what they find are the tokens and diagnostics of the scan. -/
theorem scan_takesLongest (source : String) :
    (scan source).tokens.dropLast = (visits source).filterMap Visit.token? ∧
    (scan source).report.toList =
      ((visits source).filterMap Visit.fault?).map Fault.diagnostic ∧
    (visits source).flatMap (fun v => v.segment.text) = source.toList ∧
    ∀ v ∈ visits source, source.toList = v.before ++ v.rest ∧ v.TakesLongest := by
  refine ⟨?_, ?_, flatMap_text_visits source, fun v hv => ⟨source_eq_of_mem_visits hv, ?_⟩⟩
  · rw [scan_tokens, tokens_eq_visits, List.dropLast_concat]
  · rw [scan_report, faults_eq_visits]
  · exact takesLongest_of_fits (fits_of_mem_visits hv) (finds_of_mem_visits hv)

end Lox
