import Lox.Proofs.Cutting
import Lox.Proofs.Visits

/-!
# Sources on the lines of one source

A line feed between two sources keeps them apart: nothing looks across it but a string that is
still open. The second source is then scanned as if it stood alone, only that all of its lines are
further down.

## Main definitions

* `Token.shift`, `Diagnostic.shift`: a token and a diagnostic some lines further down
* `ClosesStrings source`: no string of a source is reported to be without end

## Main results

* `Segment.Fits.append`, `Segment.Fits.append_blank`: a segment still fits if more text is put behind
  the source, a blank for instance
* `findingsFrom_add`: what is found does not depend on the line at which a text begins
* `scan_append_lineFeed`: two sources with a line feed between them
-/

namespace Lox

/-! ## Lines further down -/

/-- The token some lines further down. -/
def Token.shift (lines : UInt32) (t : Token) : Token := { t with line := t.line + lines }

/-- The fault some lines further down. -/
def Fault.shift (lines : UInt32) (f : Fault) : Fault := { f with line := f.line + lines }

/-- The diagnostic some lines further down. -/
def Diagnostic.shift (lines : UInt32) (d : Diagnostic) : Diagnostic :=
  { d with line := d.line + lines }

/-- The finding some lines further down. -/
def Finding.shift (lines : UInt32) : Finding → Finding
  | token t => token (t.shift lines)
  | fault f => fault (f.shift lines)

theorem Fault.diagnostic_shift (lines : UInt32) (f : Fault) :
    (f.shift lines).diagnostic = f.diagnostic.shift lines := by
  obtain ⟨line, cause⟩ := f
  cases cause <;> rfl

theorem filterMap_token?_shift (lines : UInt32) (fs : List Finding) :
    (fs.map (Finding.shift lines)).filterMap Finding.token? =
      (fs.filterMap Finding.token?).map (Token.shift lines) := by
  rw [List.filterMap_map, List.map_filterMap]
  congr 1
  funext f
  cases f <;> rfl

theorem filterMap_fault?_shift (lines : UInt32) (fs : List Finding) :
    (fs.map (Finding.shift lines)).filterMap Finding.fault? =
      (fs.filterMap Finding.fault?).map (Fault.shift lines) := by
  rw [List.filterMap_map, List.map_filterMap]
  congr 1
  funext f
  cases f <;> rfl

theorem lineAfter_add (line lines : UInt32) (text : List Char) :
    lineAfter (line + lines) text = lineAfter line text + lines := by
  rw [lineAfter, lineAfter, UInt32.add_assoc, UInt32.add_comm lines, UInt32.add_assoc]

theorem Segment.finding?_add (line lines : UInt32) (s : Segment) :
    s.finding? (line + lines) = (s.finding? line).map (Finding.shift lines) := by
  cases s with
  | space | comment | stray | unclosed => rfl
  | lexeme kind chars =>
    cases kind with
    | number =>
      simp only [finding?]
      split <;> rfl
    | _ => rfl

/-- **What is found does not depend on the line at which a text begins**, except for the lines. -/
theorem findingsFrom_add (line lines : UInt32) (ss : List Segment) :
    findingsFrom (line + lines) ss = (findingsFrom line ss).map (Finding.shift lines) := by
  induction ss generalizing line with
  | nil => rfl
  | cons s ss ih =>
    rw [findingsFrom_cons, findingsFrom_cons, lineAfter_add, ih, Segment.finding?_add,
      List.map_append]
    cases s.finding? line <;> rfl

/-! ## Before a blank -/

theorem Stops.append {p : Char → Bool} {text more : List Char} (h : Stops p text)
    (hmore : Stops p more) : Stops p (text ++ more) := by
  cases text with
  | nil => exact hmore
  | cons c text => exact h

theorem stops_nil {p : Char → Bool} : Stops p [] := fun c hc => absurd hc (Option.not_mem_none c)

theorem stops_cons {p : Char → Bool} {c : Char} {text : List Char} (h : p c = false) :
    Stops p (c :: text) := by
  rintro d ⟨⟩
  exact h

/-- No digit follows a point at the beginning of a text, if that holds of its first part and the
second part begins with neither of them. -/
theorem isDigit_eq_false_of_append {text more : List Char}
    (h : ∀ d after, text = '.' :: d :: after → d.isDigit = false) (hp : Stops (· = '.') more)
    (hd : Stops Char.isDigit more) :
    ∀ d after, text ++ more = '.' :: d :: after → d.isDigit = false := by
  intro d after ht
  match text with
  | [] => exact absurd (hp '.' (by simpa using congrArg List.head? ht)) (by simp)
  | [_] =>
    obtain ⟨-, rfl⟩ := List.cons.inj ht
    exact hd d rfl
  | c :: e :: text =>
    simp only [List.cons_append, List.cons.injEq] at ht
    obtain ⟨rfl, rfl, -⟩ := ht
    exact h e text rfl

/-- **A segment still fits if more text is put behind the source**, as long as no lexeme goes on
with what that text begins with, unless it is a string without end. A comment and a slash at the end
of the source depend on what they go on with. -/
theorem Segment.Fits.append {s : Segment} {behind more : List Char} (h : s.Fits behind)
    (hword : Stops isWordPart more) (hpoint : Stops (· = '.') more) (hequal : Stops (· = '=') more)
    (hs : ∀ body, s ≠ .unclosed body)
    (hcomment : ∀ body, s = .comment body → behind = [] → Stops (· ≠ '\n') more)
    (hslash : s = .lexeme .slash ['/'] → behind = [] → Stops (· = '/') more) :
    s.Fits (behind ++ more) := by
  have hdigit : Stops Char.isDigit more := fun c hc => by
    have hc := hword c hc
    simp only [isWordPart, Char.isAlphanum, Bool.or_eq_false_iff] at hc
    exact hc.1.2
  cases h with
  | space hc => exact .space hc
  | comment hb hstop =>
    cases behind with
    | nil => exact .comment hb (hcomment _ rfl rfl)
    | cons d behind => exact .comment hb hstop
  | slash hstop =>
    cases behind with
    | nil => exact .slash (hslash rfl rfl)
    | cons d behind => exact .slash hstop
  | string hb => exact .string hb
  | unclosed => exact absurd rfl (hs _)
  | whole hne hds hstop hp =>
    exact .whole hne hds (hstop.append hdigit) (isDigit_eq_false_of_append hp hpoint hdigit)
  | fraction hne hne' hds hes hstop => exact .fraction hne hne' hds hes (hstop.append hdigit)
  | word hc hcs hstop => exact .word hc hcs (hstop.append hword)
  | mark hm => exact .mark hm
  | joined ho => exact .joined ho
  | alone ho hstop => exact .alone ho (hstop.append hequal)
  | stray hspace hne hquote hc hletter hm ho => exact .stray hspace hne hquote hc hletter hm ho

/-- **A segment still fits if a blank is put behind the source**, unless it is a string without end,
or a comment at the end of the source, which only a line feed ends. -/
theorem Segment.Fits.append_blank {s : Segment} {behind : List Char} {c : Char} (h : s.Fits behind)
    (hblank : c ∈ [' ', '\t', '\r', '\n']) (hs : ∀ body, s ≠ .unclosed body)
    (hcomment : ∀ body, s = .comment body → behind = [] → c = '\n') (more : List Char) :
    s.Fits (behind ++ c :: more) := by
  have stops {p : Char → Bool} (hp : [' ', '\t', '\r', '\n'].any p = false) :
      Stops p (c :: more) :=
    stops_cons (Bool.eq_false_iff.mpr (List.any_eq_false.mp hp c hblank))
  refine h.append (stops rfl) (stops rfl) (stops rfl) hs (fun body hb hbehind => ?_)
    fun _ _ => stops rfl
  rw [hcomment body hb hbehind]
  exact stops_cons rfl

theorem Segment.cut_append_lineFeed {source more : List Char}
    (h : ∀ body, unclosed body ∉ cut source) :
    cut (source ++ '\n' :: more) = cut source ++ space '\n' :: cut more := by
  have lineFeed : cut ('\n' :: more) = space '\n' :: cut more := cut_append_of_fits (.space rfl)
  rw [← lineFeed]
  apply cut_append
  intro before s after hs
  refine (fits_of_cut_eq hs).append_blank (by decide) (fun body hb => h body ?_)
    (fun _ _ _ => rfl) more
  rw [hs, hb]
  exact List.mem_append_right _ List.mem_cons_self

/-! ## Two sources -/

/-- **A source whose strings all end**: none of its diagnostics is about a string without end. -/
def ClosesStrings (source : String) : Prop :=
  ∀ d ∈ (scan source).report.toList, d.code ≠ some Cause.unterminated.code

instance : DecidablePred ClosesStrings := fun source =>
  inferInstanceAs (Decidable (∀ d ∈ (scan source).report.toList, _))

/-- A source whose strings all end has no segment that is a string without end. -/
theorem ClosesStrings.unclosed_notMem {source : String} (h : ClosesStrings source)
    (body : List Char) : .unclosed body ∉ Segment.cut source.toList := by
  intro hb
  rw [← map_segment_visits] at hb
  obtain ⟨⟨before, s, behind, found⟩, hv, rfl⟩ := List.mem_map.mp hb
  have hf : Finds (UInt32.ofNat (1 + before.count '\n')) (.unclosed body) found :=
    finds_of_mem_visits hv
  cases hf with
  | unclosed =>
    apply h (Fault.diagnostic ⟨UInt32.ofNat (1 + before.count '\n'), .unterminated⟩) _
      (Fault.diagnostic_code _)
    rw [scan_report, faults_eq_visits]
    exact List.mem_map_of_mem (List.mem_filterMap.mpr ⟨_, hv, rfl⟩)

theorem findings_append_lineFeed {a b : String} (h : ClosesStrings a) :
    findings (a ++ "\n" ++ b) = findings a ++
      (findings b).map (Finding.shift (UInt32.ofNat (1 + a.toList.count '\n'))) := by
  have hlist : (a ++ "\n" ++ b).toList = a.toList ++ '\n' :: b.toList := by
    simp [String.toList_append]
  have hline : lineAfter (UInt32.ofNat (1 + a.toList.count '\n')) ['\n'] =
      1 + UInt32.ofNat (1 + a.toList.count '\n') := UInt32.add_comm _ _
  rw [findings, hlist, Segment.cut_append_lineFeed h.unclosed_notMem, findingsFrom_append,
    Segment.flatMap_text_cut, lineAfter_one, findingsFrom_cons]
  show _ ++ ([] ++ findingsFrom (lineAfter _ ['\n']) _) = _
  rw [hline, findingsFrom_add, List.nil_append]
  rfl

/-- **Two sources with a line feed between them.** The tokens are those of the first source without
its end and those of the second, the diagnostics are those of both, and what is from the second
source is as many lines further down as the first source has. -/
theorem scan_append_lineFeed (a b : String) (h : ClosesStrings a) :
    (scan (a ++ "\n" ++ b)).tokens = (scan a).tokens.dropLast ++
      (scan b).tokens.map (Token.shift (UInt32.ofNat (1 + a.toList.count '\n'))) ∧
    (scan (a ++ "\n" ++ b)).report.toList = (scan a).report.toList ++
      (scan b).report.toList.map (Diagnostic.shift (UInt32.ofNat (1 + a.toList.count '\n'))) := by
  constructor
  · have heof : Token.eof (lastLine (a ++ "\n" ++ b)) =
        (Token.eof (lastLine b)).shift (UInt32.ofNat (1 + a.toList.count '\n')) := by
      rw [lastLine_eq, lastLine_eq, Token.shift, Token.eof, Token.eof, ← UInt32.ofNat_add]
      simp only [String.toList_append, List.count_append, Token.mk.injEq, true_and]
      congr 1
      show 1 + (a.toList.count '\n' + 1 + b.toList.count '\n') = _
      omega
    rw [scan_tokens, scan_tokens, scan_tokens, tokens, tokens, tokens, findings_append_lineFeed h,
      List.filterMap_append, filterMap_token?_shift, List.dropLast_concat, heof, List.map_append,
      List.append_assoc]
    rfl
  · have hdiagnostic : Fault.diagnostic ∘ Fault.shift (UInt32.ofNat (1 + a.toList.count '\n')) =
        Diagnostic.shift (UInt32.ofNat (1 + a.toList.count '\n')) ∘ Fault.diagnostic :=
      funext fun f => f.diagnostic_shift _
    rw [scan_report, scan_report, scan_report, faults, faults, faults, findings_append_lineFeed h,
      List.filterMap_append, filterMap_fault?_shift, List.map_append, List.map_map, List.map_map,
      hdiagnostic]

/-- The point at the end of a line takes no digit from the next one. -/
theorem scan_point_before_digit : ClosesStrings "@\n1." ∧
    (scan ("@\n1." ++ "\n" ++ "5 #")).tokens =
      (scan "@\n1.").tokens.dropLast ++ (scan "5 #").tokens.map (Token.shift 2) ∧
    (scan ("@\n1." ++ "\n" ++ "5 #")).report.toList =
      (scan "@\n1.").report.toList ++ (scan "5 #").report.toList.map (Diagnostic.shift 2) := by
  have closes : ClosesStrings "@\n1." := by decide +kernel
  exact ⟨closes, scan_append_lineFeed "@\n1." "5 #" closes⟩

end Lox
