import Lox.Proofs.ByteOffsets
import Lox.Proofs.Readings
import Mathlib.Computability.StateTransition

/-!
# A cursor cuts off one segment at a time

A call of the loop over lexemes begins before the first character of a lexeme and is over where the
next one may begin. What it passes is the segment that is cut off there, and what it leaves behind
is what is found in that segment. Each loop inside a call passes the run of characters that the
segment consists of.

## Main definitions

* `Cursor.inCall`: a step of a call
* `Cursor.behind listener seg s`: the cursor behind a segment, with what is found there

## Main results

* `Cursor.reaches_run`: a loop passes a run of characters, if each of its rounds passes one
* `Cursor.reaches_behind`: a call cuts off the segment that fits
-/

namespace Lox.Cursor

open StateTransition (Reaches)
open Text (byteLength)

variable {σ : Type} {text before lexeme read run rest : List Char} {listener : Listener σ}
  {s t u : Cursor σ} {c : Char} {p : Point}

/-! ## Calls -/

/-- **A step of a call** of the loop over lexemes, which is over where the next one may begin. -/
def inCall (text : List Char) (listener : Listener σ) (s : Cursor σ) : Option (Cursor σ) :=
  if s.point = .between then none else s.step text listener

theorem reaches_of_move? (hp : s.point ∉ [.between, .finished, .broken])
    (hmove : s.move? text listener = some t) : Reaches (inCall text listener) s t := by
  simp only [List.mem_cons, List.not_mem_nil, or_false, not_or] at hp
  apply Relation.ReflTransGen.single
  rw [Option.mem_def, inCall, if_neg hp.1, step_of_move? hmove hp.2]

/-- The cursor at a point of a lexeme, behind what was read of it. -/
def within (read : List Char) (p : Point) (s : Cursor σ) : Cursor σ := (s.past read).goto p

@[simp] theorem point_within (read : List Char) (p : Point) (s : Cursor σ) :
    (s.within read p).point = p := rfl

theorem At.within (read : List Char) (h : At text s before [] (read ++ rest)) (p : Point) :
    At text (s.within read p) before read rest := h.past.congr rfl rfl

theorem past_within (read run : List Char) (p : Point) (s : Cursor σ) :
    (s.within read p).past run = s.within (read ++ run) p := by
  simp [Cursor.within, past, goto, lineAfter_append, Nat.add_assoc]

theorem forward_within (hc : c ≠ '\n') (read : List Char) (p : Point) (s : Cursor σ) :
    (s.within read p).forward c = s.within (read ++ [c]) p := by
  rw [forward_of_ne hc, past_within]

theorem goto_within (read : List Char) (p q : Point) (s : Cursor σ) :
    (s.within read p).goto q = s.within read q := rfl

/-! ## Loops -/

/-- **A loop passes a run of characters**, if each round passes one. -/
theorem reaches_run (hp : p ∉ [.between, .finished, .broken])
    (hround : ∀ read c rest, At text (s.within read p) before read (c :: rest) → c ∈ run →
      (s.within read p).move? text listener = some ((s.within read p).past [c]))
    (h : At text s before [] (read ++ (run ++ rest))) :
    Reaches (inCall text listener) (s.within read p) (s.within (read ++ run) p) := by
  induction run generalizing read with
  | nil =>
    rw [List.append_nil]
    exact .refl
  | cons c run ih =>
    have hfirst := hround read c (run ++ rest) (h.within _ p) List.mem_cons_self
    rw [past_within] at hfirst
    have hrest := @ih (read ++ [c])
      (fun read d rest hat hd => hround read d rest hat (List.mem_cons_of_mem c hd))
      (by simpa using h)
    rw [List.append_assoc, List.singleton_append] at hrest
    exact (reaches_of_move? hp hfirst).trans hrest

/-- **A loop over the characters of a class** passes them all, and is left where another character
follows. -/
theorem reaches_while {f : Char → Bool} (leave : Cursor σ → Option (Cursor σ))
    (hp : p ∉ [.between, .finished, .broken])
    (hmove : ∀ s : Cursor σ, s.point = p → s.move? text listener = s.while? text f leave)
    (hrun : ∀ c ∈ run, f c = true) (hline : '\n' ∉ run) (hs : Stops f rest)
    (h : At text s before [] (read ++ (run ++ rest)))
    (hleave : leave (s.within (read ++ run) p) = some t) :
    Reaches (inCall text listener) (s.within read p) t := by
  have hpass : Reaches (inCall text listener) (s.within read p) (s.within (read ++ run) p) := by
    apply reaches_run hp _ h
    intro read c rest hat hc
    rw [hmove _ rfl, hat.while?_cons (hrun c hc), forward_of_ne (ne_of_mem_of_not_mem hc hline)]
  have hend : At text (s.within (read ++ run) p) before (read ++ run) rest :=
    At.within _ (by rwa [List.append_assoc]) p
  apply hpass.trans
  apply reaches_of_move? hp
  rw [hmove _ rfl, hend.while?_of_stops hs, hleave]

/-! ## What is found -/

/-- What is found is recorded: a token, a fault, or nothing. -/
def record (listener : Listener σ) (s : Cursor σ) : Option Finding → Cursor σ
  | none => s
  | some (.token token) => s.push token
  | some (.fault fault) => s.complain listener fault

section

variable (found : Option Finding) (s : Cursor σ)

@[simp] theorem record_start : (s.record listener found).start = s.start := by
  rcases found with _ | _ | _ <;> rfl

@[simp] theorem record_current : (s.record listener found).current = s.current := by
  rcases found with _ | _ | _ <;> rfl

@[simp] theorem record_line : (s.record listener found).line = s.line := by
  rcases found with _ | _ | _ <;> rfl

end

/-- **The cursor behind a segment**, with what is found there. -/
def behind (listener : Listener σ) (seg : Segment) (s : Cursor σ) : Cursor σ :=
  ((s.past seg.text).record listener (seg.finding? s.line)).goto .between

theorem line_within (hrun : '\n' ∉ run) (p : Point) (s : Cursor σ) :
    (s.within run p).line = s.line :=
  lineAfter_of_notMem hrun s.line

/-- A lexeme that has no value is found as a token without one. -/
theorem finding?_of_isLiteral {kind : Kind} (hkind : kind.isLiteral = false) (line : UInt32) :
    (Segment.lexeme kind run).finding? line =
      some (.token { kind, lexeme := String.ofList run, literal := none, line }) := by
  cases kind with
  | number | string => cases hkind
  | _ => rfl

theorem notMem_of_isDigit {ds : List Char} (hds : ∀ d ∈ ds, d.isDigit = true) : '\n' ∉ ds :=
  fun h => absurd (hds _ h) (by decide)

theorem isLiteral_wordKind (chars : List Char) : (Segment.wordKind chars).isLiteral = false := by
  unfold Segment.wordKind
  cases Keyword.ofSpelling? (String.ofList chars) <;> rfl

theorem isLiteral_of_ofMark? {kind : Kind} (h : Kind.ofMark? c = some kind) :
    kind.isLiteral = false ∧ c ≠ '\n' := by
  unfold Kind.ofMark? at h
  split at h <;> cases h <;> decide

theorem isLiteral_of_ofOperator? {alone joined : Kind}
    (h : Kind.ofOperator? c = some (alone, joined)) :
    (alone.isLiteral = false ∧ joined.isLiteral = false) ∧ c ≠ '\n' := by
  unfold Kind.ofOperator? at h
  split at h <;> cases h <;> decide

/-- **A token of a lexeme without a value** is what is found there. -/
theorem emit?_within {kind : Kind} (h : At text s before [] (run ++ rest)) (p : Point)
    (hrun : '\n' ∉ run) (hkind : kind.isLiteral = false) :
    (s.within run p).emit? text kind none (s.within run p).line =
      some (s.behind listener (.lexeme kind run)) := by
  rw [(h.within _ p).emit?_eq, line_within hrun, behind, finding?_of_isLiteral hkind]
  rfl

/-- **A number is read**, and what is found is its token, or a fault if it cannot be read. -/
theorem emitNumber?_within (h : At text s before [] (run ++ rest)) (p : Point)
    (hrun : '\n' ∉ run) :
    (s.within run p).emitNumber? text listener =
      some (s.behind listener (.lexeme .number run)) := by
  rw [emitNumber?, (h.within _ p).lexeme?_eq, line_within hrun, behind, Segment.finding?]
  simp only [Option.bind_eq_bind, Option.bind_some]
  cases Literal.readNumber? run with
  | some value => exact (h.within _ p).emit?_eq _ _ _
  | none => rfl

/-! ## The first character -/

/-- The first character is passed. -/
theorem reaches_first (h : At text s before [] (c :: rest)) (hp : s.point = .opening) :
    Reaches (inCall text listener) s ((s.forward c).goto (.first c)) := by
  apply reaches_of_move? (by simp [hp])
  rw [move?, hp]
  simp only [h.advance?_cons, Option.bind_eq_bind, Option.bind_some]

/-- A first character that is no line feed leads where it leads by `Cursor.begin?`. -/
theorem reaches_begin (h : At text s before [] (c :: rest)) (hp : s.point = .opening)
    (hc : c ≠ '\n')
    (hbegin : (s.within [c] (.first c)).begin? text listener c = some t) :
    Reaches (inCall text listener) s t := by
  have hfirst : Reaches (inCall text listener) s (s.within [c] (.first c)) := by
    rw [within, ← forward_of_ne hc]
    exact reaches_first h hp
  exact hfirst.trans (reaches_of_move? (by simp) hbegin)

theorem begin?_of_ofMark? {kind : Kind} (hm : Kind.ofMark? c = some kind) (s : Cursor σ) :
    s.begin? text listener c = s.emit? text kind none s.line := by
  simp [begin?, hm]

theorem begin?_of_ofOperator? {alone joined : Kind}
    (ho : Kind.ofOperator? c = some (alone, joined)) (s : Cursor σ) :
    s.begin? text listener c = (s.accept? text '=').bind fun (isJoined, t) =>
      t.emit? text (if isJoined then joined else alone) none t.line := by
  have hm : Kind.ofMark? c = none := by
    unfold Kind.ofOperator? at ho
    split at ho <;> first | rfl | cases ho
  simp [begin?, hm, ho]

/-- A character of a class without signs is a digit, begins a word, or is a fault. -/
theorem begin?_of_class {p : Char → Bool} (hc : p c = true) (hp : signs.any p = false)
    (s : Cursor σ) : s.begin? text listener c =
      if c.isDigit then some (s.goto .whole)
      else if isWordStart c then some (s.goto .word)
      else some ((s.complain listener ⟨s.line, .unexpected c⟩).goto .between) := by
  have hsign : c ∉ signs := fun h => List.any_eq_false.mp hp c h hc
  simp only [signs, List.mem_cons, List.not_mem_nil, or_false, not_or] at hsign
  simp [begin?, Kind.ofMark?, Kind.ofOperator?, hsign]

theorem begin?_of_isDigit (hc : c.isDigit = true) (s : Cursor σ) :
    s.begin? text listener c = some (s.goto .whole) := by
  rw [begin?_of_class hc (by decide), if_pos hc]

theorem begin?_of_isWordStart (hc : isWordStart c = true) (s : Cursor σ) :
    s.begin? text listener c = some (s.goto .word) := by
  have hdigit : ¬ c.isDigit = true := fun h =>
    (isWordStart_iff.mp hc).not_isDigit (isDigit_iff.mp h)
  rw [begin?_of_class hc (by decide), if_neg hdigit, if_pos hc]

/-! ## Segments -/

section

variable (hp : s.point = .opening)
include hp

theorem reaches_comment {body : List Char} (hb : '\n' ∉ body) (hs : Stops (· ≠ '\n') rest)
    (h : At text s before [] (['/', '/'] ++ (body ++ rest))) :
    Reaches (inCall text listener) s (s.behind listener (.comment body)) := by
  have hfirst : At text (s.within ['/'] (.first '/')) before ['/'] ('/' :: (body ++ rest)) :=
    h.within ['/'] _
  refine (reaches_begin h hp (by decide) (t := s.within ['/', '/'] .comment) ?_).trans ?_
  · simp [begin?, Kind.ofMark?, Kind.ofOperator?, hfirst.accept?_self, forward_within, goto_within]
  · refine reaches_while (fun t => some (t.goto .between)) (by decide) (fun t ht => ?_)
      (forall_ne_of_notMem hb) hb hs h rfl
    rw [move?, ht]

/-- Inside of a string. -/
theorem reaches_body {body : List Char} (hb : '"' ∉ body)
    (h : At text s before [] (['"'] ++ (body ++ rest))) :
    Reaches (inCall text listener) s (s.within ('"' :: body) (.string s.line)) := by
  have hbegin : (s.within ['"'] (.first '"')).begin? text listener '"' =
      some (s.within ['"'] (.string s.line)) := by
    have hline : (s.within ['"'] (.first '"')).line = s.line := line_within (by decide) _ s
    simp [begin?, Kind.ofMark?, Kind.ofOperator?, hline, goto_within]
  refine (reaches_begin h hp (by decide) hbegin).trans ?_
  refine reaches_run (by simp) (fun read c rest hat hc => ?_) h
  exact hat.string?_cons (ne_of_mem_of_not_mem hc hb) s.line

theorem reaches_string {body : List Char} (hb : '"' ∉ body)
    (h : At text s before [] ('"' :: body ++ ['"'] ++ rest)) :
    Reaches (inCall text listener) s
      (s.behind listener (.lexeme .string ('"' :: body ++ ['"']))) := by
  have hopen : At text s before [] ('"' :: body ++ '"' :: rest) := by simpa using h
  have hclose : (s.within ('"' :: body) (.string s.line)).move? text listener =
      some (s.within ('"' :: body ++ ['"']) (.closed s.line)) := by
    rw [← goto_within _ (.string s.line), ← forward_within (by decide)]
    exact (hopen.within _ _).string?_quote s.line
  have hemit : (s.within ('"' :: body ++ ['"']) (.closed s.line)).move? text listener =
      some (s.behind listener (.lexeme .string ('"' :: body ++ ['"']))) := by
    have hclosed := h.within _ (.closed s.line)
    have hvalue : Literal.readString ('"' :: body ++ ['"']) = .string (String.ofList body) := by
      simp [Literal.readString]
    rw [behind, Segment.finding?, hvalue]
    exact (hclosed.emitString?_eq s.line).trans (hclosed.emit?_eq _ _ _)
  exact (reaches_body hp hb hopen).trans
    ((reaches_of_move? (by simp) hclose).trans
      (reaches_of_move? (by simp) hemit))

theorem reaches_unclosed {body : List Char} (hb : '"' ∉ body)
    (h : At text s before [] (['"'] ++ (body ++ []))) :
    Reaches (inCall text listener) s (s.behind listener (.unclosed body)) := by
  have hend : At text (s.within ('"' :: body) (.string s.line)) before ('"' :: body) [] :=
    h.within ('"' :: body) _
  exact (reaches_body hp hb h).trans
    (reaches_of_move? (by simp) (hend.string?_nil s.line))

/-- The digits up to a point or to the end of a number. -/
theorem reaches_digits {d : Char} {ds : List Char} (hds : ∀ e ∈ d :: ds, e.isDigit = true)
    (hs : Stops Char.isDigit rest) (h : At text s before [] ([d] ++ (ds ++ rest)))
    (hleave : (s.within (d :: ds) .whole).point? text listener = some t) :
    Reaches (inCall text listener) s t := by
  have hd : d.isDigit = true := hds d List.mem_cons_self
  have hline := notMem_of_isDigit hds
  rw [List.mem_cons, not_or] at hline
  refine (reaches_begin h hp (Ne.symm hline.1) (begin?_of_isDigit hd _)).trans ?_
  refine reaches_while (point? text listener) (by decide) (fun t ht => ?_)
    (fun e he => hds e (List.mem_cons_of_mem d he)) hline.2 hs h hleave
  rw [move?, ht]

theorem reaches_whole {ds : List Char} (hne : ds ≠ []) (hds : ∀ e ∈ ds, e.isDigit = true)
    (hs : Stops Char.isDigit rest)
    (hpoint : ∀ e after, rest = '.' :: e :: after → e.isDigit = false)
    (h : At text s before [] (ds ++ rest)) :
    Reaches (inCall text listener) s (s.behind listener (.lexeme .number ds)) := by
  obtain ⟨d, ds, rfl⟩ := List.exists_cons_of_ne_nil hne
  apply reaches_digits hp hds hs h
  rw [(h.within _ _).point?_end hpoint, emitNumber?_within h _ (notMem_of_isDigit hds)]

theorem reaches_fraction {ds es : List Char} (hne : ds ≠ []) (hne' : es ≠ [])
    (hds : ∀ d ∈ ds, d.isDigit = true) (hes : ∀ e ∈ es, e.isDigit = true)
    (hs : Stops Char.isDigit rest) (h : At text s before [] (ds ++ '.' :: es ++ rest)) :
    Reaches (inCall text listener) s
      (s.behind listener (.lexeme .number (ds ++ '.' :: es))) := by
  obtain ⟨d, ds, rfl⟩ := List.exists_cons_of_ne_nil hne
  obtain ⟨e, es, rfl⟩ := List.exists_cons_of_ne_nil hne'
  have hwhole : At text s before [] ([d] ++ (ds ++ '.' :: (e :: es ++ rest))) := by simpa using h
  have hfraction : At text s before [] ((d :: ds ++ ['.']) ++ (e :: es ++ rest)) := by simpa using h
  have hline : '\n' ∉ d :: ds ++ '.' :: e :: es :=
    List.not_mem_append (notMem_of_isDigit hds)
      (List.not_mem_cons_of_ne_of_not_mem (by decide) (notMem_of_isDigit hes))
  have hpoint : (s.within (d :: ds) .whole).point? text listener =
      some (s.within (d :: ds ++ ['.']) .fraction) := by
    rw [(hwhole.within (d :: ds) _).point?_fraction (hes e List.mem_cons_self),
      forward_within (by decide), goto_within]
  refine (reaches_digits hp hds (stops_cons rfl) hwhole hpoint).trans ?_
  refine reaches_while (emitNumber? text listener) (by decide) (fun t ht => ?_) hes
    (notMem_of_isDigit hes) hs hfraction ?_
  · rw [move?, ht]
  · rw [List.append_assoc, List.singleton_append, emitNumber?_within h _ hline]

theorem reaches_word {cs : List Char} (hc : isWordStart c = true)
    (hcs : ∀ d ∈ cs, isWordPart d = true) (hs : Stops isWordPart rest)
    (h : At text s before [] ([c] ++ (cs ++ rest))) :
    Reaches (inCall text listener) s
      (s.behind listener (.lexeme (Segment.wordKind (c :: cs)) (c :: cs))) := by
  have hline : '\n' ≠ c ∧ '\n' ∉ cs :=
    ⟨fun hn => absurd (hn ▸ hc) (by decide), fun hn => absurd (hcs _ hn) (by decide)⟩
  refine (reaches_begin h hp (Ne.symm hline.1) (begin?_of_isWordStart hc _)).trans ?_
  refine reaches_while (emitWord? text) (by decide) (fun t ht => ?_) hcs hline.2 hs h ?_
  · rw [move?, ht]
  · have hword : '\n' ∉ c :: cs := List.not_mem_cons_of_ne_of_not_mem hline.1 hline.2
    have hat : At text s before [] (c :: cs ++ rest) := h
    exact (hat.within _ _).emitWord?_eq.trans
      (emit?_within hat _ hword (isLiteral_wordKind _))

theorem reaches_slash (hs : Stops (· = '/') rest) (h : At text s before [] (['/'] ++ rest)) :
    Reaches (inCall text listener) s (s.behind listener (.lexeme .slash ['/'])) := by
  apply reaches_begin h hp (by decide)
  simp only [begin?, Kind.ofMark?, Kind.ofOperator?, (h.within ['/'] _).accept?_of_stops hs,
    Option.bind_eq_bind, Option.bind_some, if_true]
  exact emit?_within h _ (by decide) rfl

theorem reaches_mark {kind : Kind} (hm : Kind.ofMark? c = some kind)
    (h : At text s before [] ([c] ++ rest)) :
    Reaches (inCall text listener) s (s.behind listener (.lexeme kind [c])) := by
  obtain ⟨hkind, hc⟩ := isLiteral_of_ofMark? hm
  apply reaches_begin h hp hc
  rw [begin?_of_ofMark? hm]
  exact emit?_within h _ (by simpa using hc.symm) hkind

theorem reaches_joined {alone joined : Kind} (ho : Kind.ofOperator? c = some (alone, joined))
    (h : At text s before [] ([c, '='] ++ rest)) :
    Reaches (inCall text listener) s (s.behind listener (.lexeme joined [c, '='])) := by
  obtain ⟨hkind, hc⟩ := isLiteral_of_ofOperator? ho
  apply reaches_begin h hp hc
  rw [begin?_of_ofOperator? ho, (At.within [c] h _).accept?_self, Option.bind_some,
    forward_within (by decide)]
  exact emit?_within h _ (by simpa using hc.symm) hkind.2

theorem reaches_alone {alone joined : Kind} (ho : Kind.ofOperator? c = some (alone, joined))
    (hs : Stops (· = '=') rest) (h : At text s before [] ([c] ++ rest)) :
    Reaches (inCall text listener) s (s.behind listener (.lexeme alone [c])) := by
  obtain ⟨hkind, hc⟩ := isLiteral_of_ofOperator? ho
  apply reaches_begin h hp hc
  rw [begin?_of_ofOperator? ho, (h.within [c] _).accept?_of_stops hs, Option.bind_some]
  exact emit?_within h _ (by simpa using hc.symm) hkind.1

theorem reaches_space (hc : isSpace c = true) (h : At text s before [] ([c] ++ rest)) :
    Reaches (inCall text listener) s (s.behind listener (.space c)) := by
  by_cases hline : c = '\n'
  · -- only here a line feed is counted before it is passed
    subst hline
    exact (reaches_first h hp).trans (reaches_of_move? (by simp [goto]) rfl)
  · apply reaches_begin h hp hline
    have hblank := Segment.isSpace_iff.mp hc
    simp only [List.mem_cons, List.not_mem_nil, or_false] at hblank
    obtain rfl | rfl | rfl | rfl := hblank
    · rfl
    · rfl
    · rfl
    · exact absurd rfl hline

theorem reaches_stray (hspace : isSpace c = false) (hslash : c ≠ '/') (hquote : c ≠ '"')
    (hdigit : c.isDigit = false) (hletter : isWordStart c = false) (hm : Kind.ofMark? c = none)
    (ho : Kind.ofOperator? c = none) (h : At text s before [] ([c] ++ rest)) :
    Reaches (inCall text listener) s (s.behind listener (.stray c)) := by
  have hblank := mt Segment.isSpace_iff.mpr (Bool.eq_false_iff.mp hspace)
  simp only [List.mem_cons, List.not_mem_nil, or_false, not_or] at hblank
  obtain ⟨hblank, htab, hreturn, hline⟩ := hblank
  have hsame : (s.within [c] (.first c)).line = s.line :=
    line_within (by simpa using Ne.symm hline) _ s
  apply reaches_begin h hp hline
  simp only [begin?, hm, ho, hslash, hblank, htab, hreturn, hline, hquote, hdigit, hletter, hsame]
  rfl

/-- **A call cuts off the segment that fits** before the rest of the text, and leaves behind what is
found there. -/
theorem reaches_behind {seg : Segment} (hfits : seg.Fits rest)
    (h : At text s before [] (seg.text ++ rest)) :
    Reaches (inCall text listener) s (s.behind listener seg) := by
  cases hfits with
  | space hc => exact reaches_space hp hc h
  | comment hb hs => exact reaches_comment hp hb hs h
  | slash hs => exact reaches_slash hp hs h
  | string hb => exact reaches_string hp hb h
  | unclosed hb => exact reaches_unclosed hp hb h
  | whole hne hds hs hpoint => exact reaches_whole hp hne hds hs hpoint h
  | fraction hne hne' hds hes hs => exact reaches_fraction hp hne hne' hds hes hs h
  | word hc hcs hs => exact reaches_word hp hc hcs hs h
  | mark hm => exact reaches_mark hp hm h
  | joined ho => exact reaches_joined hp ho h
  | alone ho hs => exact reaches_alone hp ho hs h
  | stray hspace hslash hquote hdigit hletter hm ho =>
    exact reaches_stray hp hspace hslash hquote hdigit hletter hm ho h

end

end Lox.Cursor
