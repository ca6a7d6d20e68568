import Lox.Proofs.Visits
import Mathlib.Data.List.Forall2

/-!
# The segments of a source cover it

A scan loses no character and reads none twice: the source is the concatenation of segments, the
tokens are the lexemes among them and the diagnostics what is wrong among them, both in order, and
everything else is a blank or a comment.

## Main definitions

* `Segment.IsShaped behind s`: what a segment consists of, before the text `behind` it
* `Segment.Reports d s`: a diagnostic reports what is wrong with a segment
* `Segmentation source segments`: segments that cover a source, with its tokens and diagnostics

## Main results

* `exists_segmentation`: every source has a segmentation
-/

namespace Lox

namespace Segment

/-- The segments that become tokens. -/
def isLexeme : Segment → Bool
  | lexeme .. => true
  | _ => false

/-- The segments that are reported. -/
def isFaulty : Segment → Bool
  | stray _ | unclosed _ => true
  | _ => false

/-- What a segment consists of, before the text `behind` it. Only a comment and a string without
end say something about that text: a comment goes up to a line feed or the end, and a string
without end up to the end. -/
def IsShaped (behind : List Char) : Segment → Prop
  | space c => c = ' ' ∨ c = '\t' ∨ c = '\r' ∨ c = '\n'
  | comment body => '\n' ∉ body ∧ (behind = [] ∨ behind.head? = some '\n')
  | unclosed body => '"' ∉ body ∧ behind = []
  | lexeme .. | stray _ => True

/-- A diagnostic that reports what is wrong with a segment. -/
def Reports (d : Diagnostic) : Segment → Prop
  | stray c => d.code.map Code.text = some "EL001" ∧ d.message = "Unexpected character." ∧
      d.notes = ["found " ++ Text.quoteChar c ++ ", which starts no token"]
  | unclosed _ => d.code.map Code.text = some "EL002" ∧ d.message = "Unterminated string."
  | _ => False

end Segment

/-- **A segmentation of a source.** Its segments are consecutive and not empty, and each is a
lexeme, a fault or trivia. The tokens but the last are the lexemes, the last one is the only end of
the source, and the diagnostics are the faults. -/
structure Segmentation (source : String) (segments : List Segment) : Prop where
  covers : segments.flatMap Segment.text = source.toList
  nonempty : ∀ s ∈ segments, s.text ≠ []
  shaped : ∀ before s after, segments = before ++ s :: after →
    s.IsShaped (after.flatMap Segment.text)
  tokens : ∃ ts eof, (scan source).tokens = ts ++ [eof] ∧
    List.Forall₂ (fun t s => t.lexeme.toList = s.text) ts (segments.filter Segment.isLexeme) ∧
    (∀ t ∈ ts, t.kind ≠ .eof) ∧ eof.kind = .eof ∧ eof.lexeme = ""
  diagnostics : List.Forall₂ Segment.Reports (scan source).report.toList
    (segments.filter Segment.isFaulty)

/-! ## What is found is picked out of the segments -/

/-- What a partial function gives is in step with the elements that it is defined on. -/
theorem forall₂_filterMap_filter {α β : Type} {R : β → α → Prop} {f : α → Option β}
    {p : α → Bool} {as : List α}
    (h : ∀ a ∈ as, (p a = true ∧ ∃ b, f a = some b ∧ R b a) ∨ (p a = false ∧ f a = none)) :
    List.Forall₂ R (as.filterMap f) (as.filter p) := by
  induction as with
  | nil => exact .nil
  | cons a as ih =>
    have rest := ih fun a' ha' => h a' (List.mem_cons_of_mem a ha')
    rcases h a List.mem_cons_self with ⟨hp, b, hf, hr⟩ | ⟨hp, hf⟩
    · rw [List.filterMap_cons_some hf, List.filter_cons_of_pos hp]
      exact .cons hr rest
    · rw [List.filterMap_cons_none hf, List.filter_cons_of_neg (by simp [hp])]
      exact rest

/-- What visits give is in step with the segments that they give it for. -/
theorem forall₂_visits {β : Type} {R : β → Segment → Prop} {f : Visit → Option β}
    {p : Segment → Bool} (source : String)
    (h : ∀ v ∈ visits source, (p v.segment = true ∧ ∃ b, f v = some b ∧ R b v.segment) ∨
      (p v.segment = false ∧ f v = none)) :
    List.Forall₂ R ((visits source).filterMap f) ((Segment.cut source.toList).filter p) := by
  rw [← map_segment_visits, List.filter_map, List.forall₂_map_right_iff]
  exact forall₂_filterMap_filter h

/-- **The tokens of the visits are the lexemes** among the segments. -/
theorem forall₂_token_isLexeme (source : String) :
    List.Forall₂ (fun t s => t.lexeme.toList = s.text) ((visits source).filterMap Visit.token?)
      ((Segment.cut source.toList).filter Segment.isLexeme) := by
  refine forall₂_visits source fun v hv => ?_
  obtain ⟨before, s, behind, found⟩ := v
  have hf : Finds (UInt32.ofNat (1 + before.count '\n')) s found := finds_of_mem_visits hv
  cases hf with
  | token => exact Or.inl ⟨rfl, _, rfl, String.toList_ofList⟩
  | stray | unclosed | space | comment => exact Or.inr ⟨rfl, rfl⟩

theorem code_text_unexpected (c : Char) : (Cause.unexpected c).code.text = "EL001" := by
  show Code.text ⟨'L', 1⟩ = "EL001"
  decide

theorem code_text_unterminated : Cause.unterminated.code.text = "EL002" := by decide

/-- **The faults of the visits are the faulty segments.** -/
theorem forall₂_fault_isFaulty (source : String) :
    List.Forall₂ (fun (f : Fault) s => s.Reports f.diagnostic)
      ((visits source).filterMap Visit.fault?)
      ((Segment.cut source.toList).filter Segment.isFaulty) := by
  refine forall₂_visits source fun v hv => ?_
  obtain ⟨before, s, behind, found⟩ := v
  have hf : Finds (UInt32.ofNat (1 + before.count '\n')) s found := finds_of_mem_visits hv
  cases hf with
  | stray c =>
    refine Or.inl ⟨rfl, _, rfl, ?_, rfl, rfl⟩
    rw [Fault.diagnostic_code, Option.map_some, code_text_unexpected]
  | unclosed body =>
    refine Or.inl ⟨rfl, _, rfl, ?_, rfl⟩
    rw [Fault.diagnostic_code, Option.map_some, code_text_unterminated]
  | token | space | comment => exact Or.inr ⟨rfl, rfl⟩

theorem kind_ne_eof_of_visit {source : String} {t : Token}
    (h : t ∈ (visits source).filterMap Visit.token?) : t.kind ≠ .eof := by
  obtain ⟨v, hv, ht⟩ := List.mem_filterMap.mp h
  exact (lexeme_of_token hv ht).2.1.ne_eof

/-! ## The segmentation -/

theorem Segment.Fits.isShaped {s : Segment} {behind : List Char} (h : s.Fits behind) :
    s.IsShaped behind := by
  cases h with
  | space hc => simpa [IsShaped, isSpace, or_assoc] using hc
  | comment hb hs =>
    refine ⟨hb, ?_⟩
    cases behind with
    | nil => exact Or.inl rfl
    | cons c behind => exact Or.inr (by simpa [Stops] using hs)
  | unclosed hb => exact ⟨hb, rfl⟩
  | slash | string | whole | fraction | word | mark | joined | alone | stray => trivial

/-- **Every source has a segmentation.** No character is lost, read twice or shared by two
lexemes, whatever mix of tokens, faults, comments and strings the source has. -/
theorem exists_segmentation (source : String) : ∃ segments, Segmentation source segments := by
  refine ⟨Segment.cut source.toList, ?_, ?_, ?_, ?_, ?_⟩
  · exact Segment.flatMap_text_cut _
  · exact fun s hs => Segment.text_ne_nil_of_mem_cut hs
  · intro before s after h
    exact (Segment.fits_of_cut_eq h).isShaped
  · refine ⟨_, _, (scan_tokens source).trans (tokens_eq_visits source), ?_, ?_, rfl, rfl⟩
    · exact forall₂_token_isLexeme source
    · exact fun t ht => kind_ne_eof_of_visit ht
  · rw [scan_report, faults_eq_visits, List.forall₂_map_left_iff]
    exact forall₂_fault_isFaulty source

end Lox
