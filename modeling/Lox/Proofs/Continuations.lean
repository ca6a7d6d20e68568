import Lox.Proofs.Printing
import Mathlib.Data.List.DropRight

/-!
# Sources that go on

More text behind a source changes what is found at its end only. A segment with something behind it
fits there as before, because what ends it is still there; the one exception is a number before a
point at the end of the source, where the text may begin with digits of the fraction. So all
segments are cut off again except the last one, or the last two in that case.

## Main definitions

* `Segment.IsOpen more tail`: the segments at the end of a source that may change before `more`
* `EndsInPoint source number point`: a source that ends in a number and a point
* `Token.joined`: the number that goes on with a point and more digits
* `GoesOn source more`: what is left of a scan when more text is put behind the source

## Main results

* `Segment.Fits.append_of_ne_nil`: a segment with something behind it fits before more text
* `Segment.exists_cut_append`: the source is cut as before up to the open segments
* `scan_goesOn`: more text disturbs the last two tokens at most, and no diagnostic but that of a
  string without end
-/

namespace Lox

/-! ## Segments with something behind them -/

/-- A text that begins with a digit. -/
def BeginsWithDigit (text : List Char) : Prop := ∃ d ∈ text.head?, d.isDigit = true

instance (text : List Char) : Decidable (BeginsWithDigit text) :=
  inferInstanceAs (Decidable (∃ d ∈ text.head?, _))

theorem stops_of_not_beginsWithDigit {text : List Char} (h : ¬ BeginsWithDigit text) :
    Stops Char.isDigit text :=
  fun d hd => Bool.eq_false_iff.mpr fun hdigit => h ⟨d, hd, hdigit⟩

theorem Stops.append_of_ne_nil {p : Char → Bool} {text : List Char} (h : Stops p text)
    (hne : text ≠ []) (more : List Char) : Stops p (text ++ more) := by
  cases text with
  | nil => exact absurd rfl hne
  | cons c text => exact h

namespace Segment

/-- **A segment with something behind it fits before more text**, unless it is a whole number, only
a point is behind it, and the text begins with a digit. -/
theorem Fits.append_of_ne_nil {s : Segment} {behind more : List Char} (h : s.Fits behind)
    (hne : behind ≠ [])
    (hpoint : ∀ ds, s = .lexeme .number ds → '.' ∉ ds → behind = ['.'] → ¬ BeginsWithDigit more) :
    s.Fits (behind ++ more) := by
  cases h with
  | space hc => exact .space hc
  | comment hb hstop => exact .comment hb (hstop.append_of_ne_nil hne more)
  | slash hstop => exact .slash (hstop.append_of_ne_nil hne more)
  | string hb => exact .string hb
  | unclosed => exact absurd rfl hne
  | @whole ds _ hds0 hds hstop hp =>
    refine .whole hds0 hds (hstop.append_of_ne_nil hne more) ?_
    intro d after ht
    match behind with
    | [c] =>
      obtain ⟨rfl, rfl⟩ := List.cons.inj ht
      have hno : '.' ∉ ds := fun hmem => absurd (hds '.' hmem) (by decide)
      exact stops_of_not_beginsWithDigit (hpoint ds rfl hno rfl) d rfl
    | c :: e :: behind =>
      simp only [List.cons_append, List.cons.injEq] at ht
      obtain ⟨rfl, rfl, -⟩ := ht
      exact hp e behind rfl
  | fraction hne' hne'' hds hes hstop =>
    exact .fraction hne' hne'' hds hes (hstop.append_of_ne_nil hne more)
  | word hc hcs hstop => exact .word hc hcs (hstop.append_of_ne_nil hne more)
  | mark hm => exact .mark hm
  | joined ho => exact .joined ho
  | alone ho hstop => exact .alone ho (hstop.append_of_ne_nil hne more)
  | stray hspace hne' hquote hc hletter hm ho =>
    exact .stray hspace hne' hquote hc hletter hm ho

/-! ## The end of a source -/

/-- The text behind some segments of a source is cut as it is in the source. -/
theorem cut_flatMap_of_cut_eq {source : List Char} {before after : List Segment}
    (h : cut source = before ++ after) : cut (after.flatMap text) = after := by
  have hcut : cut (after.flatMap text ++ []) = after ++ cut [] := by
    apply cut_flatMap_append
    intro pre s post hs
    have hsplit : cut source = (before ++ pre) ++ s :: post := by
      rw [h, hs, List.append_assoc]
    rw [List.append_nil]
    exact fits_of_cut_eq hsplit
  rwa [List.append_nil, cut_nil, List.append_nil] at hcut

theorem cut_point : cut ['.'] = [.lexeme .dot ['.']] := by
  have hmark : Kind.ofMark? '.' = some .dot := rfl
  rw [cut_cons, first_of_ofMark? hmark, cut_nil]

/-- **A source is cut as before up to some segments at its end.** A number before these may go on
with their point. -/
theorem cut_append_before {source more : List Char} {kept tail : List Segment}
    (h : cut source = kept ++ tail) (hne : tail ≠ [])
    (hpoint : ∀ before ds, kept = before ++ [.lexeme .number ds] → '.' ∉ ds →
      tail = [.lexeme .dot ['.']] → ¬ BeginsWithDigit more) :
    cut (source ++ more) = kept ++ cut (tail.flatMap text ++ more) := by
  have hsource : source = kept.flatMap text ++ tail.flatMap text := by
    rw [← List.flatMap_append, ← h, flatMap_text_cut]
  rw [hsource, List.append_assoc]
  apply cut_flatMap_append
  intro before s after hs
  have hsplit : cut source = before ++ s :: (after ++ tail) := by
    rw [h, hs, List.append_assoc, List.cons_append]
  have hcut : cut source = before ++ [s] ++ (after ++ tail) := by
    rw [hsplit, List.append_assoc, List.singleton_append]
  rw [← List.append_assoc, ← List.flatMap_append]
  apply (fits_of_cut_eq hsplit).append_of_ne_nil
  · intro hnil
    have htail := cut_flatMap_of_cut_eq hcut
    rw [hnil, cut_nil] at htail
    exact hne (List.append_eq_nil_iff.mp htail.symm).2
  · rintro ds rfl hno hbehind
    have htail := cut_flatMap_of_cut_eq hcut
    rw [hbehind, cut_point] at htail
    obtain ⟨rfl, rfl⟩ | ⟨-, rfl⟩ := List.append_eq_singleton_iff.mp htail.symm
    · exact hpoint before ds hs hno rfl
    · exact absurd rfl hne

/-- **The segments at the end of a source that may change** when text is put behind it: none, the
last one, or a whole number and a point if the text begins with a digit. -/
inductive IsOpen (more : List Char) : List Segment → Prop
  | nil : IsOpen more []
  | last {s : Segment} : (∀ c, s ≠ .stray c) → IsOpen more [s]
  | point {ds : List Char} : '.' ∉ ds → BeginsWithDigit more →
      IsOpen more [.lexeme .number ds, .lexeme .dot ['.']]

/-- **A source is cut as before up to its open segments.** -/
theorem exists_cut_append (source more : List Char) : ∃ kept tail, cut source = kept ++ tail ∧
    cut (source ++ more) = kept ++ cut (tail.flatMap text ++ more) ∧ IsOpen more tail := by
  rcases List.eq_nil_or_concat (cut source) with hnil | ⟨init, s, hs⟩
  · have hsource := flatMap_text_cut source
    rw [hnil] at hsource
    exact ⟨[], [], hnil, by rw [← hsource]; rfl, .nil⟩
  rw [List.concat_eq_append] at hs
  by_cases hpoint : ∃ before ds, init = before ++ [.lexeme .number ds] ∧ '.' ∉ ds ∧
      s = .lexeme .dot ['.'] ∧ BeginsWithDigit more
  · obtain ⟨before, ds, rfl, hno, rfl, hmore⟩ := hpoint
    rw [List.append_assoc] at hs
    exact ⟨before, _, hs, cut_append_before hs (by simp) (by simp), .point hno hmore⟩
  have hcut : cut (source ++ more) = init ++ cut ([s].flatMap text ++ more) := by
    refine cut_append_before hs (by simp) fun before ds hinit hno htail hmore => hpoint ?_
    exact ⟨before, ds, hinit, hno, List.singleton_inj.mp htail, hmore⟩
  by_cases hstray : ∃ c, s = .stray c
  · obtain ⟨c, rfl⟩ := hstray
    have hfits : (Segment.stray c).Fits more := by
      cases fits_of_cut_eq hs with
      | stray hspace hne hquote hc hletter hm ho =>
        exact .stray hspace hne hquote hc hletter hm ho
    refine ⟨init ++ [.stray c], [], by rw [hs, List.append_nil], ?_, .nil⟩
    rw [hcut, List.append_assoc]
    exact congrArg (init ++ ·) (cut_append_of_fits hfits)
  · exact ⟨init, [s], hs, hcut, .last fun c hc => hstray ⟨c, hc⟩⟩

/-! ## A number before a point at the end -/

/-- **A whole number and a point at the end** go on with the digits behind them. -/
theorem cut_append_of_point {source more ds : List Char} {kept : List Segment}
    (h : cut source = kept ++ [.lexeme .number ds, .lexeme .dot ['.']]) (hno : '.' ∉ ds)
    (hmore : BeginsWithDigit more) :
    IsLexeme .number (ds ++ '.' :: more.takeWhile Char.isDigit) ∧
    cut (source ++ more) = kept ++ .lexeme .number (ds ++ '.' :: more.takeWhile Char.isDigit) ::
      cut (more.dropWhile Char.isDigit) := by
  have hnumber : IsNumber ds := (fits_of_cut_eq h).isLexeme.isNumber
  cases hnumber with
  | fraction => exact absurd (List.mem_append_right _ List.mem_cons_self) hno
  | whole hne hds =>
    have hdigits : more.takeWhile Char.isDigit ≠ [] := by
      obtain ⟨d, hd, hdigit⟩ := hmore
      obtain ⟨rest, rfl⟩ := List.head?_eq_some_iff.mp hd
      rw [List.takeWhile_cons_of_pos hdigit]
      exact List.cons_ne_nil _ _
    have hfits : (Segment.lexeme .number (ds ++ '.' :: more.takeWhile Char.isDigit)).Fits
        (more.dropWhile Char.isDigit) :=
      .fraction hne hdigits (forall_isDigit_iff.mpr hds) (fun e he => List.mem_takeWhile_imp he)
        (stops_dropWhile _ _)
    refine ⟨hfits.isLexeme, ?_⟩
    rw [cut_append_before h (by simp) (by simp), ← cut_append_of_fits hfits]
    simp [text]

end Segment

/-- A source that ends in a whole number and a point directly behind it. -/
structure EndsInPoint (source : String) (number point : Token) : Prop where
  ends : ∃ vs v w, visits source = vs ++ [v, w] ∧ v.token? = some number ∧ w.token? = some point
  number : number.kind = .number ∧ '.' ∉ number.lexeme.toList
  point : point.kind = .dot

/-- **The number that goes on** with a point and more digits, with the value of all of them. -/
def Token.joined (number : Token) (digits : List Char) : Token :=
  { number with
    lexeme := String.ofList (number.lexeme.toList ++ '.' :: digits)
    literal := Literal.readNumber? (number.lexeme.toList ++ '.' :: digits) }

/-- The visits of the last segments, and what is found at those before. -/
theorem Segment.exists_visits_append (before : List Char) (line : UInt32) (ss ts : List Segment) :
    ∃ vs, visits before line (ss ++ ts) =
        vs ++ visits (before ++ ss.flatMap text) (lineAfter line (ss.flatMap text)) ts ∧
      vs.filterMap Visit.found = findingsFrom line ss := by
  induction ss generalizing before line with
  | nil => exact ⟨[], by simp, rfl⟩
  | cons s ss ih =>
    obtain ⟨vs, hvs, hfound⟩ := ih (before ++ s.text) (lineAfter line s.text)
    let v : Visit :=
      { before, segment := s, behind := (ss ++ ts).flatMap text, found := s.finding? line }
    refine ⟨v :: vs, ?_, ?_⟩
    · rw [List.cons_append, visits, hvs, List.flatMap_cons, List.append_assoc, lineAfter_append,
        List.cons_append]
    · rw [findingsFrom_cons, ← hfound, List.filterMap_cons]
      cases hf : s.finding? line <;> simp [v, hf]

theorem Visit.found_of_token? {v : Visit} {t : Token} (h : v.token? = some t) :
    v.found = some (.token t) := by
  obtain ⟨f, hf, ht⟩ := Option.bind_eq_some_iff.mp h
  cases f with
  | token u => rw [hf, Option.some.inj ht]
  | fault f => cases ht

theorem symbol_dot : ∀ entry ∈ symbols, entry.2 = .dot → entry.1 = ['.'] := by decide

/-- **The segments of a number and a point at the end**, and what is found up to there. -/
theorem EndsInPoint.exists_cut {source : String} {number point : Token}
    (h : EndsInPoint source number point) : ∃ kept,
    Segment.cut source.toList =
      kept ++ [.lexeme .number number.lexeme.toList, .lexeme .dot ['.']] ∧
    number.line = lineAfter 1 (kept.flatMap Segment.text) ∧
    findings source = findingsFrom 1 kept ++ [.token number, .token point] := by
  obtain ⟨⟨vs, v, w, hvs, hv, hw⟩, ⟨hkind, hno⟩, hpoint⟩ := h
  have hmem : v ∈ visits source ∧ w ∈ visits source := by simp [hvs]
  obtain ⟨hvs', -, hline⟩ := lexeme_of_token hmem.1 hv
  obtain ⟨hws, hdot, -⟩ := lexeme_of_token hmem.2 hw
  have htext : point.lexeme.toList = ['.'] := by
    rw [hpoint] at hdot
    exact symbol_dot _ hdot.admits rfl
  have hcut : Segment.cut source.toList = vs.map Visit.segment ++ [v.segment, w.segment] := by
    rw [← map_segment_visits, hvs, List.map_append]
    rfl
  obtain ⟨us, hus, hfound⟩ := Segment.exists_visits_append [] 1 (vs.map Visit.segment)
    [v.segment, w.segment]
  rw [← hcut] at hus
  obtain ⟨rfl, hlast⟩ := List.append_inj' (hvs.symm.trans hus) rfl
  have hbefore := congrArg Visit.before (List.cons.inj hlast).1
  refine ⟨vs.map Visit.segment, ?_, ?_, ?_⟩
  · rw [hcut, hvs', hws, hkind, hpoint, htext]
  · rw [hline, ← lineAfter_one, hbefore]
    rfl
  · rw [← filterMap_found_visits, hvs, List.filterMap_append, hfound]
    simp [Visit.found_of_token? hv, Visit.found_of_token? hw]

/-- A number and a point at the end of the segments are tokens at the end of the source. -/
theorem exists_endsInPoint {source : String} {kept : List Segment} {ds : List Char}
    (h : Segment.cut source.toList = kept ++ [.lexeme .number ds, .lexeme .dot ['.']])
    (hno : '.' ∉ ds) : ∃ number point, EndsInPoint source number point := by
  let l : Lexeme := ⟨.number, ds, (Segment.fits_of_cut_eq h).isLexeme⟩
  obtain ⟨vs, hvs, -⟩ := Segment.exists_visits_append [] 1 kept [l.segment, .lexeme .dot ['.']]
  rw [show kept ++ [l.segment, _] = Segment.cut source.toList from h.symm] at hvs
  refine ⟨l.token (lineAfter 1 (kept.flatMap Segment.text)), _, ⟨vs, _, _, hvs, ?_, rfl⟩, ⟨rfl, ?_⟩,
    rfl⟩
  · rw [Visit.token?, l.finding?_segment]
    rfl
  · rw [Lexeme.token, String.toList_ofList]
    exact hno

/-- **A number and a point at the end merge with the digits behind them** into one number. -/
theorem EndsInPoint.exists_joined {source more : String} {number point : Token}
    (h : EndsInPoint source number point) (hmore : BeginsWithDigit more.toList) :
    ∃ before after, (scan source).tokens = before ++ [number, point, Token.eof (lastLine source)] ∧
      (scan (source ++ more)).tokens =
        before ++ number.joined (more.toList.takeWhile Char.isDigit) :: after := by
  obtain ⟨kept, hcut, hline, hfound⟩ := h.exists_cut
  obtain ⟨hl, hcut'⟩ := Segment.cut_append_of_point hcut h.number.2 hmore
  let l : Lexeme := ⟨.number, _, hl⟩
  have hjoined : l.token number.line = number.joined (more.toList.takeWhile Char.isDigit) := by
    have hkind := h.number.1
    obtain ⟨kind, lexeme, literal, line⟩ := number
    obtain rfl : kind = .number := hkind
    rfl
  have hfound' : ∃ fs, findings (source ++ more) = findingsFrom 1 kept ++
      .token (number.joined (more.toList.takeWhile Char.isDigit)) :: fs := by
    have hsegment := l.finding?_segment number.line
    rw [hjoined] at hsegment
    rw [findings, String.toList_append, hcut', findingsFrom_append, findingsFrom_cons, ← hline,
      show Segment.lexeme .number _ = l.segment from rfl, hsegment]
    exact ⟨_, rfl⟩
  obtain ⟨fs, hfound'⟩ := hfound'
  refine ⟨(findingsFrom 1 kept).filterMap Finding.token?,
    fs.filterMap Finding.token? ++ [Token.eof (lastLine (source ++ more))], ?_, ?_⟩
  · rw [scan_tokens, tokens, hfound, List.filterMap_append, List.append_assoc]
    rfl
  · rw [scan_tokens, tokens, hfound', List.filterMap_append, List.append_assoc]
    rfl

/-! ## Scans -/

/-- Diagnostics without that of a string without end, if it is the last one. -/
def withoutUnterminated (ds : List Diagnostic) : List Diagnostic :=
  if ds.getLast?.any fun d => d.code = some Cause.unterminated.code then ds.dropLast else ds

theorem isPrefix_withoutUnterminated (ds : List Diagnostic) : withoutUnterminated ds <+: ds := by
  unfold withoutUnterminated
  split
  · exact ds.dropLast_prefix
  · exact List.prefix_rfl

theorem withoutUnterminated_concat (ds : List Diagnostic) (line : UInt32) :
    withoutUnterminated (ds ++ [Fault.diagnostic ⟨line, .unterminated⟩]) = ds := by
  simp [withoutUnterminated]

/-- A fault among open segments is a string without end. -/
theorem Segment.IsOpen.faults {source more : List Char} {kept tail : List Segment}
    (h : IsOpen more tail) (hcut : cut source = kept ++ tail) (line : UInt32) :
    (findingsFrom line tail).filterMap Finding.fault? = [] ∨
      (findingsFrom line tail).filterMap Finding.fault? = [⟨line, .unterminated⟩] := by
  cases h with
  | nil => exact .inl rfl
  | @last s hs =>
    have hfinds := (fits_of_cut_eq hcut).finds line
    rw [findingsFrom_cons]
    generalize s.finding? line = found at hfinds
    cases hfinds with
    | stray c => exact absurd rfl (hs c)
    | unclosed => exact .inr rfl
    | token | space | comment => exact .inl rfl
  | point =>
    have hfinds := (fits_of_cut_eq hcut).finds line
    rw [findingsFrom_cons]
    generalize (Segment.lexeme .number _).finding? line = found at hfinds
    cases hfinds with
    | token => exact .inl rfl

theorem length_findingsFrom_le (line : UInt32) (ss : List Segment) :
    (findingsFrom line ss).length ≤ ss.length := by
  induction ss generalizing line with
  | nil => exact Nat.le_refl 0
  | cons s ss ih =>
    have hrest := ih (lineAfter line s.text)
    have hfirst : (s.finding? line).toList.length ≤ 1 := by cases s.finding? line <;> simp
    rw [findingsFrom_cons, List.length_append, List.length_cons]
    omega

/-- What remains if the last elements are dropped is at the beginning. -/
theorem isPrefix_rdrop_append {α : Type} {as bs : List α} {n : Nat} (h : bs.length ≤ n) :
    (as ++ bs).rdrop n <+: as := by
  rw [List.rdrop, List.take_append_of_le_length (by rw [List.length_append]; omega)]
  exact List.take_prefix _ _

/-- **What is left of a scan** when more text is put behind the source: the tokens but the end and
the last two, and but the last one unless a number and a point go on with the text; these two are
one number then. The diagnostics are left, up to that of a string without end. -/
structure GoesOn (source more : String) : Prop where
  tokens : (scan source).tokens.rdrop 3 <+: (scan (source ++ more)).tokens.dropLast
  last : (∀ number point, EndsInPoint source number point → ¬ BeginsWithDigit more.toList) →
    (scan source).tokens.rdrop 2 <+: (scan (source ++ more)).tokens.dropLast
  joined : ∀ number point, EndsInPoint source number point → BeginsWithDigit more.toList →
    ∃ before after, (scan source).tokens = before ++ [number, point, Token.eof (lastLine source)] ∧
      (scan (source ++ more)).tokens =
        before ++ number.joined (more.toList.takeWhile Char.isDigit) :: after
  diagnostics : withoutUnterminated (scan source).report.toList <+:
    (scan (source ++ more)).report.toList

/-- The tokens of a source without its end. -/
theorem dropLast_tokens (source : String) :
    (tokens source).dropLast = (findings source).filterMap Finding.token? := by
  rw [tokens, List.dropLast_concat]

/-- **More text disturbs the end of a source only**, wherever the source was broken off. -/
theorem scan_goesOn (source more : String) : GoesOn source more := by
  obtain ⟨kept, tail, hcut, hmore, hopen⟩ :=
    Segment.exists_cut_append source.toList more.toList
  have hfound : findings source = findingsFrom 1 kept ++
      findingsFrom (lineAfter 1 (kept.flatMap Segment.text)) tail := by
    rw [findings, hcut, findingsFrom_append]
  have hfound' : ∃ fs, findings (source ++ more) = findingsFrom 1 kept ++ fs := by
    rw [findings, String.toList_append, hmore, findingsFrom_append]
    exact ⟨_, rfl⟩
  obtain ⟨fs, hfound'⟩ := hfound'
  have htokens (n : Nat) (hn : tail.length < n) :
      (scan source).tokens.rdrop n <+: (scan (source ++ more)).tokens.dropLast := by
    have hlength := (List.length_filterMap_le Finding.token? _).trans
      (length_findingsFrom_le (lineAfter 1 (kept.flatMap Segment.text)) tail)
    rw [scan_tokens, scan_tokens, dropLast_tokens, hfound', tokens, hfound, List.filterMap_append,
      List.filterMap_append, List.append_assoc]
    refine (isPrefix_rdrop_append ?_).trans (List.prefix_append _ _)
    rw [List.length_append, List.length_singleton]
    omega
  refine ⟨?_, fun hpoint => ?_, fun number point hpoint hdigit => ?_, ?_⟩
  · apply htokens 3
    cases hopen <;> simp
  · -- without a number before a point, one segment is open at most
    apply htokens 2
    cases hopen with
    | nil | last => simp
    | point hno hdigit =>
      obtain ⟨number, point, hends⟩ := exists_endsInPoint hcut hno
      exact absurd hdigit (hpoint number point hends)
  · exact hpoint.exists_joined hdigit
  · have hkept : ((findingsFrom 1 kept).filterMap Finding.fault?).map Fault.diagnostic <+:
        (scan (source ++ more)).report.toList := by
      rw [scan_report, faults, hfound', List.filterMap_append, List.map_append]
      exact List.prefix_append _ _
    refine List.IsPrefix.trans ?_ hkept
    rw [scan_report, faults, hfound, List.filterMap_append, List.map_append]
    rcases hopen.faults hcut (lineAfter 1 (kept.flatMap Segment.text)) with hnone | hone
    · rw [hnone, List.map_nil, List.append_nil]
      exact isPrefix_withoutUnterminated _
    · exact ⟨[], by rw [hone, List.map_singleton, withoutUnterminated_concat, List.append_nil]⟩

/-- A source is broken off behind a point, and goes on with the fraction. -/
theorem scan_goesOn_behind_point : ∃ number point, EndsInPoint "a 1." number point ∧
    ∃ before after, (scan "a 1.").tokens = before ++ [number, point, Token.eof (lastLine "a 1.")] ∧
      (scan ("a 1." ++ "5 b")).tokens = before ++ number.joined ['5'] :: after := by
  have hcut : Segment.cut "a 1.".toList = [.lexeme .identifier ['a'], .space ' '] ++
      [.lexeme .number ['1'], .lexeme .dot ['.']] := by decide +kernel
  have hdigit : BeginsWithDigit "5 b".toList := ⟨'5', rfl, rfl⟩
  obtain ⟨number, point, hends⟩ := exists_endsInPoint hcut (by decide)
  exact ⟨number, point, hends, (scan_goesOn "a 1." "5 b").joined number point hends hdigit⟩

end Lox
