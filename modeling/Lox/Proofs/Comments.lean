import Lox.Proofs.Printing

/-!
# Comments are transparent

A comment may stand before a line feed or at the end of a source, whatever it consists of: the
scan finds what it finds without the comment. Behind a text that ends in a comment of its own, the
two slashes and all that follows them join that comment. Only a slash at the end of the text would
make a difference, because it would begin the comment one character earlier.

## Main definitions

* `EndsInSlash source`: a slash is found at the end of a source

## Main results

* `findingsFrom_cut_append_comment`: what is found in a text with a comment behind it
* `scan_append_comment`: a scan of a source with a comment in it is one of the source without it
-/

namespace Lox

/-- **A source that ends in a slash**: the token of a slash is found, and nothing is behind it. -/
def EndsInSlash (source : String) : Prop :=
  ∃ v ∈ visits source, v.behind = [] ∧ v.token?.map Token.kind = some .slash

instance : DecidablePred EndsInSlash := fun source =>
  inferInstanceAs (Decidable (∃ v ∈ visits source, _))

/-- A source that does not end in a slash has another segment at its end. -/
theorem getLast?_cut_ne_slash {source : String} (h : ¬ EndsInSlash source) :
    (Segment.cut source.toList).getLast? ≠ some (.lexeme .slash ['/']) := by
  intro hlast
  obtain ⟨pre, hpre⟩ := List.getLast?_eq_some_iff.mp hlast
  have visited := Segment.mem_visits [] 1 pre (.lexeme .slash ['/']) []
  rw [← hpre] at visited
  exact h ⟨_, visited, rfl, rfl⟩

/-- A text that begins with nothing but a line feed stops whatever does not go on with one. -/
theorem Stops.of_lineFeed {p : Char → Bool} {text : List Char} (h : Stops (· ≠ '\n') text)
    (hp : p '\n' = false) : Stops p text := by
  intro c hc
  obtain rfl : c = '\n' := by simpa using h c hc
  exact hp

/-- **What is found in a text with a comment behind it** is what is found without the comment. -/
theorem findingsFrom_cut_append_comment {source body tail : List Char} (hb : '\n' ∉ body)
    (htail : Stops (· ≠ '\n') tail) (hunclosed : ∀ body, .unclosed body ∉ Segment.cut source)
    (hslash : (Segment.cut source).getLast? ≠ some (.lexeme .slash ['/'])) (line : UInt32) :
    findingsFrom line (Segment.cut (source ++ ('/' :: '/' :: body ++ tail))) =
      findingsFrom line (Segment.cut (source ++ tail)) := by
  refine findingsFrom_cut_append_congr (fun before s behind hcut fits hlast => ?_)
    (findingsFrom_cut_comment_append hb htail) (fun own line hown => ?_) line
  · have hmem : s ∈ Segment.cut source := by simp [hcut]
    have longer {more : List Char} (hword : Stops isWordPart more) (hpoint : Stops (· = '.') more)
        (hequal : Stops (· = '=') more) : s.Fits (behind ++ more) := by
      refine fits.append hword hpoint hequal (fun body hs => hunclosed body (hs ▸ hmem))
        (fun own hs hbehind => absurd hbehind (hlast own hs)) ?_
      rintro rfl rfl
      exact absurd (by rw [hcut, Segment.cut_nil, List.getLast?_concat]) hslash
    exact ⟨longer (stops_cons rfl) (stops_cons rfl) (stops_cons rfl),
      longer (htail.of_lineFeed rfl) (htail.of_lineFeed rfl) (htail.of_lineFeed rfl)⟩
  · have hjoined : '\n' ∉ own ++ '/' :: '/' :: body := by simpa [hown] using hb
    have joined := findingsFrom_cut_comment_append hjoined htail line
    rw [List.cons_append, List.cons_append, List.append_assoc] at joined
    exact joined.trans (findingsFrom_cut_comment_append hown htail line).symm

/-- A scan is told by what is found and by the last line. -/
theorem scan_eq_of_findings_eq {s t : String} (hfindings : findings s = findings t)
    (hline : lastLine s = lastLine t) : scan s = scan t := by
  simp only [scan, scanWith, hfindings, hline]

/-- A scan of a source with a comment at the end of a line, or at the end of the source. -/
theorem scan_eq_of_toList {p c commented plain : String} {tail : List Char}
    (hc : '\n' ∉ c.toList) (hp : ClosesStrings p) (hslash : ¬ EndsInSlash p)
    (htail : Stops (· ≠ '\n') tail)
    (hcommented : commented.toList = p.toList ++ ('/' :: '/' :: c.toList ++ tail))
    (hplain : plain.toList = p.toList ++ tail) : scan commented = scan plain := by
  apply scan_eq_of_findings_eq
  · rw [findings, findings, hcommented, hplain]
    exact findingsFrom_cut_append_comment hc htail hp.unclosed_notMem
      (getLast?_cut_ne_slash hslash) 1
  · rw [lastLine_eq, lastLine_eq, hcommented, hplain]
    simp [List.count_eq_zero.mpr hc]

/-- **A comment is transparent**, whatever stands in it and whatever stands before it, a string
without end and a slash excepted: the tokens and the diagnostics are those of the source without the
comment, both at the end of a line and at the end of the source. -/
theorem scan_append_comment (p c q : String) (hc : '\n' ∉ c.toList) (hp : ClosesStrings p)
    (hslash : ¬ EndsInSlash p) :
    scan (p ++ "//" ++ c ++ "\n" ++ q) = scan (p ++ "\n" ++ q) ∧ scan (p ++ "//" ++ c) = scan p := by
  constructor
  · have htail : Stops (· ≠ '\n') ('\n' :: q.toList) := stops_cons rfl
    exact scan_eq_of_toList hc hp hslash htail (by simp [String.toList_append])
      (by simp [String.toList_append])
  · exact scan_eq_of_toList hc hp hslash stops_nil (by simp [String.toList_append]) (by simp)

/-- A quotation mark in a comment begins no string, and the comment may stand behind a point or join
another one. -/
theorem scan_comment_behind_point : ('\n' ∉ "\"é// @".toList ∧ ClosesStrings "/ //\n# 1." ∧
      ¬ EndsInSlash "/ //\n# 1.") ∧
    scan ("/ //\n# 1." ++ "//" ++ "\"é// @" ++ "\n" ++ "5 \"") =
      scan ("/ //\n# 1." ++ "\n" ++ "5 \"") ∧
    scan ("/ //\n# 1." ++ "//" ++ "\"é// @") = scan "/ //\n# 1." := by
  have notMem : '\n' ∉ "\"é// @".toList := by decide +kernel
  have closes : ClosesStrings "/ //\n# 1." := by decide +kernel
  have ends : ¬ EndsInSlash "/ //\n# 1." := by decide +kernel
  exact ⟨⟨notMem, closes, ends⟩,
    scan_append_comment "/ //\n# 1." "\"é// @" "5 \"" notMem closes ends⟩

end Lox
