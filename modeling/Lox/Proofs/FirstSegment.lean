import Lox.Segment
import Mathlib.Data.List.TakeWhile

/-!
# The first segment of a source

One relation says everything that a single cut can do: which segments are cut off, and what must or
must not follow them. All that holds of every cut, and by induction of every source, is read off
its cases.

## Main definitions

* `Stops p text`: a text that does not begin with a character that satisfies `p`
* `Segment.Fits s behind`: a segment that can be cut off before the text `behind`

## Main results

* `Segment.fits_first`: what is cut off fits before the rest
* `Segment.fits_of_cut_eq`: every segment of a source fits before what is behind it
-/

namespace Lox

/-- A text that does not begin with a character that satisfies `p`. -/
def Stops (p : Char → Bool) (text : List Char) : Prop := ∀ c ∈ text.head?, p c = false

theorem stops_dropWhile (p : Char → Bool) (text : List Char) : Stops p (text.dropWhile p) := by
  intro c hc
  have h := List.head?_dropWhile_not p text
  rw [Option.mem_def.mp hc] at h
  simpa using h

section Runs

variable {p : Char → Bool} {run behind : List Char}

theorem takeWhile_append_of_stops (h : ∀ c ∈ run, p c = true) (hs : Stops p behind) :
    (run ++ behind).takeWhile p = run := by
  rw [List.takeWhile_append_of_pos h]
  cases behind with
  | nil => simp
  | cons c behind =>
    have hc : p c = false := hs c rfl
    rw [List.takeWhile_cons_of_neg (by simp [hc]), List.append_nil]

theorem dropWhile_append_of_stops (h : ∀ c ∈ run, p c = true) (hs : Stops p behind) :
    (run ++ behind).dropWhile p = behind := by
  rw [List.dropWhile_append_of_pos h]
  cases behind with
  | nil => rfl
  | cons c behind =>
    have hc : p c = false := hs c rfl
    rw [List.dropWhile_cons_of_neg (by simp [hc])]

end Runs

/-- A character that is not in a text differs from those that are. -/
theorem forall_ne_of_notMem {c : Char} {text : List Char} (h : c ∉ text) :
    ∀ d ∈ text, decide (d ≠ c) = true := by
  intro d hd
  rw [decide_eq_true_eq]
  rintro rfl
  exact h hd

namespace Segment

/-- **A segment that fits before a text.** One case for each thing that a cut can find: what the
segment consists of, and how the text behind it ends the segment. -/
inductive Fits : Segment → List Char → Prop
  | space {c : Char} {behind : List Char} : isSpace c = true → Fits (.space c) behind
  | comment {body behind : List Char} : '\n' ∉ body → Stops (· ≠ '\n') behind →
      Fits (.comment body) behind
  | slash {behind : List Char} : Stops (· = '/') behind → Fits (.lexeme .slash ['/']) behind
  | string {body behind : List Char} : '"' ∉ body →
      Fits (.lexeme .string ('"' :: body ++ ['"'])) behind
  | unclosed {body : List Char} : '"' ∉ body → Fits (.unclosed body) []
  | whole {ds behind : List Char} : ds ≠ [] → (∀ d ∈ ds, d.isDigit = true) →
      Stops Char.isDigit behind →
      (∀ d after, behind = '.' :: d :: after → d.isDigit = false) →
      Fits (.lexeme .number ds) behind
  | fraction {ds es behind : List Char} : ds ≠ [] → es ≠ [] → (∀ d ∈ ds, d.isDigit = true) →
      (∀ e ∈ es, e.isDigit = true) → Stops Char.isDigit behind →
      Fits (.lexeme .number (ds ++ '.' :: es)) behind
  | word {c : Char} {cs behind : List Char} : isWordStart c = true →
      (∀ d ∈ cs, isWordPart d = true) → Stops isWordPart behind →
      Fits (.lexeme (wordKind (c :: cs)) (c :: cs)) behind
  | mark {c : Char} {kind : Kind} {behind : List Char} : Kind.ofMark? c = some kind →
      Fits (.lexeme kind [c]) behind
  | joined {c : Char} {alone joined : Kind} {behind : List Char} :
      Kind.ofOperator? c = some (alone, joined) → Fits (.lexeme joined [c, '=']) behind
  | alone {c : Char} {alone joined : Kind} {behind : List Char} :
      Kind.ofOperator? c = some (alone, joined) → Stops (· = '=') behind →
      Fits (.lexeme alone [c]) behind
  | stray {c : Char} {behind : List Char} : isSpace c = false → c ≠ '/' → c ≠ '"' →
      c.isDigit = false → isWordStart c = false → Kind.ofMark? c = none →
      Kind.ofOperator? c = none → Fits (.stray c) behind

/-! ## What a single cut finds -/

theorem fits_slash (rest : List Char) : Fits (slash rest).1 (slash rest).2 := by
  unfold slash
  split
  · next body =>
    apply Fits.comment _ (stops_dropWhile _ _)
    intro h
    simpa using List.mem_takeWhile_imp h
  · next h =>
    apply Fits.slash
    intro c hc
    obtain ⟨after, rfl⟩ := List.head?_eq_some_iff.mp hc
    simpa using fun hc' => h after (by rw [hc'])

theorem fits_quotation (rest : List Char) : Fits (quotation rest).1 (quotation rest).2 := by
  unfold quotation
  split
  · next h =>
    apply Fits.unclosed
    intro hq
    simpa using List.dropWhile_eq_nil_iff.mp h _ hq
  · next h =>
    apply Fits.string
    intro hq
    simpa using List.mem_takeWhile_imp hq

theorem fits_number {c : Char} (rest : List Char) (hc : c.isDigit = true) :
    Fits (number c rest).1 (number c rest).2 := by
  have whole : ∀ d ∈ c :: rest.takeWhile Char.isDigit, d.isDigit = true := by
    intro d hd
    rcases List.mem_cons.mp hd with rfl | hd
    · exact hc
    · exact List.mem_takeWhile_imp hd
  have stops := stops_dropWhile Char.isDigit rest
  unfold number
  split
  · next d after h =>
    split
    · next hd =>
      apply Fits.fraction (by simp) (by simp) whole _ (stops_dropWhile _ _)
      intro e he
      rcases List.mem_cons.mp he with rfl | he
      · exact hd
      · exact List.mem_takeWhile_imp he
    · next hd =>
      apply Fits.whole (by simp) whole (h ▸ stops)
      intro e after' he
      obtain ⟨rfl, -⟩ := List.cons.inj (List.cons.inj he).2
      simpa using hd
  · next h =>
    exact .whole (by simp) whole stops fun d after hd => absurd hd (h d after)

theorem fits_word {c : Char} (rest : List Char) (hc : isWordStart c = true) :
    Fits (word c rest).1 (word c rest).2 :=
  .word hc (fun _ => List.mem_takeWhile_imp) (stops_dropWhile _ _)

theorem fits_operator {c : Char} {alone joined : Kind} (rest : List Char)
    (hc : Kind.ofOperator? c = some (alone, joined)) :
    Fits (operator alone joined c rest).1 (operator alone joined c rest).2 := by
  unfold operator
  split
  · exact .joined hc
  · next h =>
    apply Fits.alone hc
    intro d hd
    obtain ⟨after, rfl⟩ := List.head?_eq_some_iff.mp hd
    simpa using fun hd' => h after (by rw [hd'])

/-- **What is cut off fits before the rest.** -/
theorem fits_first (c : Char) (rest : List Char) : Fits (first c rest).1 (first c rest).2 := by
  unfold first
  split
  · next h => exact .space h
  next hspace =>
  split
  · exact fits_slash rest
  next hslash =>
  split
  · exact fits_quotation rest
  next hquote =>
  split
  · next h => exact fits_number rest h
  next hdigit =>
  split
  · next h => exact fits_word rest h
  next hletter =>
  split
  · next h => exact .mark h
  · next h => exact fits_operator rest h
  · next hm ho =>
    exact .stray (by simpa using hspace) hslash hquote (by simpa using hdigit)
      (by simpa using hletter) hm ho

/-! ## All cuts of a source -/

/-- **Every segment of a source fits before what is behind it.** -/
theorem fits_of_cut_eq {source : List Char} {before after : List Segment} {s : Segment}
    (h : cut source = before ++ s :: after) : s.Fits (after.flatMap text) := by
  -- by the segments before, each of which takes one cut
  induction before generalizing source with
  | nil =>
    cases source with
    | nil => simp at h
    | cons c rest =>
      rw [cut_cons] at h
      obtain ⟨rfl, rfl⟩ := List.cons.inj h
      rw [flatMap_text_cut]
      exact fits_first c rest
  | cons s' before ih =>
    cases source with
    | nil => simp at h
    | cons c rest =>
      rw [cut_cons] at h
      exact ih (List.cons.inj h).2

end Segment

end Lox
