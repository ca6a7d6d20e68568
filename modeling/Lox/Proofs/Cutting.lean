import Lox.Proofs.FirstSegment
import Lox.Proofs.Grammar

/-!
# Where a source is cut

A segment is cut off before a text if and only if it fits there: what is cut off fits
(`Segment.fits_first`), and what fits is cut off. So whether a source is cut in the same places
when more text is put behind it is a question about each of its segments alone: does it still fit?

## Main results

* `Segment.first_eq_of_fits`: a segment that fits before a text is the first one of both
* `Segment.cut_append_of_fits`: a segment that fits before a text is cut off from it
* `Segment.cut_flatMap_append`: segments that fit one behind the other are cut off
* `Segment.cut_append`: a source is cut in the same places before more text, if all of its segments
  fit there
-/

namespace Lox.Segment

variable {c : Char} {rest : List Char}

/-! ## What the first character decides -/

theorem first_slash : first '/' rest = slash rest := rfl

theorem first_quotation : first '"' rest = quotation rest := rfl

theorem first_of_ofMark? {kind : Kind} (h : Kind.ofMark? c = some kind) :
    first c rest = (lexeme kind [c], rest) := by
  unfold Kind.ofMark? at h
  split at h <;> cases h <;> rfl

theorem first_of_ofOperator? {alone joined : Kind}
    (h : Kind.ofOperator? c = some (alone, joined)) :
    first c rest = operator alone joined c rest := by
  unfold Kind.ofOperator? at h
  split at h <;> cases h <;> rfl

theorem isSpace_iff : isSpace c = true ↔ c ∈ [' ', '\t', '\r', '\n'] := by
  simp [isSpace, or_assoc]

/-- A character of a class that no blank belongs to is no blank. -/
theorem isSpace_eq_false {p : Char → Bool} (hc : p c = true)
    (hp : [' ', '\t', '\r', '\n'].any p = false) : isSpace c = false := by
  rw [Bool.eq_false_iff]
  intro h
  exact List.any_eq_false.mp hp c (isSpace_iff.mp h) hc

theorem first_of_isDigit (hc : c.isDigit = true) : first c rest = number c rest := by
  have hspace : isSpace c = false := isSpace_eq_false hc (by decide)
  have hslash : c ≠ '/' := by
    rintro rfl
    exact absurd hc (by decide)
  have hquote : c ≠ '"' := by
    rintro rfl
    exact absurd hc (by decide)
  simp [first, hspace, hslash, hquote, hc]

theorem first_of_isWordStart (hc : isWordStart c = true) : first c rest = word c rest := by
  have hspace : isSpace c = false := isSpace_eq_false hc (by decide)
  have hslash : c ≠ '/' := by
    rintro rfl
    exact absurd hc (by decide)
  have hquote : c ≠ '"' := by
    rintro rfl
    exact absurd hc (by decide)
  have hdigit : c.isDigit = false := by
    rw [Bool.eq_false_iff, ne_eq, isDigit_iff]
    exact (isWordStart_iff.mp hc).not_isDigit
  simp [first, hspace, hslash, hquote, hdigit, hc]

/-! ## What fits is cut off -/

variable {ds es behind : List Char} {d : Char}

theorem slash_of_stops (hs : Stops (· = '/') rest) : slash rest = (lexeme .slash ['/'], rest) := by
  unfold slash
  split
  · exact absurd (hs '/' rfl) (by simp)
  · rfl

theorem operator_of_stops {alone joined : Kind} (hs : Stops (· = '=') rest) :
    operator alone joined c rest = (lexeme alone [c], rest) := by
  unfold operator
  split
  · exact absurd (hs '=' rfl) (by simp)
  · rfl

theorem quotation_of_closed {body : List Char} (hb : '"' ∉ body) :
    quotation (body ++ '"' :: behind) = (lexeme .string ('"' :: body ++ ['"']), behind) := by
  have hs : Stops (fun c => decide (c ≠ '"')) ('"' :: behind) := by
    rintro c ⟨⟩
    rfl
  rw [quotation, dropWhile_append_of_stops (forall_ne_of_notMem hb) hs]
  simp only [takeWhile_append_of_stops (forall_ne_of_notMem hb) hs]

theorem quotation_of_unclosed {body : List Char} (hb : '"' ∉ body) :
    quotation body = (unclosed body, []) := by
  have hd : body.dropWhile (fun c => decide (c ≠ '"')) = [] :=
    List.dropWhile_eq_nil_iff.mpr (forall_ne_of_notMem hb)
  rw [quotation, hd]

theorem number_of_whole (hds : ∀ e ∈ ds, e.isDigit = true) (hs : Stops Char.isDigit behind)
    (hp : ∀ e after, behind = '.' :: e :: after → e.isDigit = false) :
    number d (ds ++ behind) = (lexeme .number (d :: ds), behind) := by
  rw [number, takeWhile_append_of_stops hds hs, dropWhile_append_of_stops hds hs]
  split
  · next e after =>
    rw [if_neg]
    simp [hp e after rfl]
  · rfl

theorem number_of_fraction (hds : ∀ e ∈ ds, e.isDigit = true) (hne : es ≠ [])
    (hes : ∀ e ∈ es, e.isDigit = true) (hs : Stops Char.isDigit behind) :
    number d (ds ++ '.' :: (es ++ behind)) = (lexeme .number (d :: ds ++ '.' :: es), behind) := by
  have hpoint : Stops Char.isDigit ('.' :: (es ++ behind)) := by
    rintro c ⟨⟩
    rfl
  obtain ⟨e, es, rfl⟩ := List.exists_cons_of_ne_nil hne
  have he : e.isDigit = true := hes e List.mem_cons_self
  have hes' : ∀ f ∈ es, f.isDigit = true := fun f hf => hes f (List.mem_cons_of_mem e hf)
  rw [number, takeWhile_append_of_stops hds hpoint, dropWhile_append_of_stops hds hpoint]
  simp [he, takeWhile_append_of_stops hes' hs, dropWhile_append_of_stops hes' hs]

/-- **A segment that fits before a text is the first one of both.** -/
theorem first_eq_of_fits {s : Segment} (h : s.Fits behind) :
    ∃ c rest, s.text ++ behind = c :: rest ∧ first c rest = (s, behind) := by
  cases h with
  | @space c _ hc => exact ⟨c, behind, rfl, by simp [first, hc]⟩
  | @comment body _ hb hs =>
    refine ⟨'/', '/' :: (body ++ behind), rfl, ?_⟩
    rw [first_slash, slash, takeWhile_append_of_stops (forall_ne_of_notMem hb) hs,
      dropWhile_append_of_stops (forall_ne_of_notMem hb) hs]
  | slash hs => exact ⟨'/', behind, rfl, by rw [first_slash, slash_of_stops hs]⟩
  | @string body _ hb =>
    refine ⟨'"', body ++ '"' :: behind, by simp [text], ?_⟩
    rw [first_quotation, quotation_of_closed hb]
  | @unclosed body hb =>
    refine ⟨'"', body, by simp [text], ?_⟩
    rw [first_quotation, quotation_of_unclosed hb]
  | @whole ds _ hne hds hs hp =>
    obtain ⟨d, ds, rfl⟩ := List.exists_cons_of_ne_nil hne
    refine ⟨d, ds ++ behind, rfl, ?_⟩
    rw [first_of_isDigit (hds d List.mem_cons_self),
      number_of_whole (fun e he => hds e (List.mem_cons_of_mem d he)) hs hp]
  | @fraction ds es _ hne hne' hds hes hs =>
    obtain ⟨d, ds, rfl⟩ := List.exists_cons_of_ne_nil hne
    refine ⟨d, ds ++ '.' :: (es ++ behind), by simp [text], ?_⟩
    rw [first_of_isDigit (hds d List.mem_cons_self),
      number_of_fraction (fun e he => hds e (List.mem_cons_of_mem d he)) hne' hes hs]
  | @word c cs _ hc hcs hs =>
    refine ⟨c, cs ++ behind, rfl, ?_⟩
    rw [first_of_isWordStart hc, word, takeWhile_append_of_stops hcs hs,
      dropWhile_append_of_stops hcs hs]
  | @mark c _ _ hm => exact ⟨c, behind, rfl, first_of_ofMark? hm⟩
  | @joined c _ _ _ ho => exact ⟨c, '=' :: behind, rfl, first_of_ofOperator? ho⟩
  | @alone c _ _ _ ho hs =>
    exact ⟨c, behind, rfl, by rw [first_of_ofOperator? ho, operator_of_stops hs]⟩
  | @stray c _ hspace hslash hquote hdigit hletter hm ho =>
    exact ⟨c, behind, rfl, by simp [first, hspace, hslash, hquote, hdigit, hletter, hm, ho]⟩

/-- **A segment that fits before a text is cut off from it.** -/
theorem cut_append_of_fits {s : Segment} (h : s.Fits behind) :
    cut (s.text ++ behind) = s :: cut behind := by
  obtain ⟨c, rest, ht, hf⟩ := first_eq_of_fits h
  rw [ht, cut_cons, hf]

/-- **Segments are cut off before a text**, if each of them fits before what is behind it. -/
theorem cut_flatMap_append {ss : List Segment} {more : List Char}
    (h : ∀ before s after, ss = before ++ s :: after → s.Fits (after.flatMap text ++ more)) :
    cut (ss.flatMap text ++ more) = ss ++ cut more := by
  induction ss with
  | nil => rfl
  | cons s ss ih =>
    have hrest := ih fun before s' after hs =>
      h (s :: before) s' after (by rw [hs, List.cons_append])
    rw [List.flatMap_cons, List.append_assoc, cut_append_of_fits (h [] s ss rfl), hrest,
      List.cons_append]

/-- **A source is cut in the same places before more text**, if all of its segments fit there. -/
theorem cut_append {source more : List Char}
    (h : ∀ before s after, cut source = before ++ s :: after →
      s.Fits (after.flatMap text ++ more)) :
    cut (source ++ more) = cut source ++ cut more := by
  rw [← cut_flatMap_append h, flatMap_text_cut]

end Lox.Segment
