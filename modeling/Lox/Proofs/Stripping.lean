import Lox.Proofs.Cutting
import Lox.Proofs.Readings
import Mathlib.Algebra.Order.BigOperators.Group.List
import Mathlib.Algebra.Order.Group.Nat
import Mathlib.Data.List.Basic

/-!
# Stripped sources keep what a scan finds

Taking out the trivia of a source one character after the other leaves the lexemes of its tokens,
the stray characters that are no blanks, and the string without end, in their order. The scan and
the stripping know different blanks: the scan skips four characters, the stripping takes out all
that have the property White_Space. So the lexemes alone are the stripped source exactly if all
faults are about blanks that the scan does not know.

## Main definitions

* `Segment.kept`, `Visit.kept`: what is left of a segment, and of what a visit finds

## Main results

* `IsFamiliar.isBlank_eq`: of the characters that can stand in code both know the same blanks
* `stripFrom_append_of_fits`: what is left of a segment before what is left behind it
* `stripFrom_eq_flatMap_kept`: what is left of the segments of a text
* `strip_eq_flatMap_kept`: a stripped source, and when it is the joined lexemes
-/

namespace Lox

open Text (isBlank)

/-! ## Blanks of both kinds -/

theorem isBlank_eq_false_of_visible {c : Char} (h : 0x20 < c.toNat) (h' : c.toNat < 0x7f) :
    isBlank c = false := by
  rw [Bool.eq_false_iff, isBlank, ne_eq, Text.Ranges.has_iff]
  rintro ⟨range, hr, hle, hge⟩
  have outside : ∀ range ∈ Text.blanks, range.2 ≤ 0x20 ∨ 0x7f ≤ range.1 := by decide
  rcases outside range hr with hout | hout
  · omega
  · omega

theorem IsDigit.isBlank_eq_false {c : Char} (h : IsDigit c) : isBlank c = false := by
  obtain ⟨hle, hge⟩ := h
  exact isBlank_eq_false_of_visible (Nat.lt_of_lt_of_le (by decide) hle)
    (Nat.lt_of_le_of_lt hge (by decide))

theorem IsLetter.isBlank_eq_false {c : Char} (h : IsLetter c) : isBlank c = false := by
  rcases h with ⟨hle, hge⟩ | ⟨hle, hge⟩ | rfl
  · exact isBlank_eq_false_of_visible (Nat.lt_of_lt_of_le (by decide) hle)
      (Nat.lt_of_le_of_lt hge (by decide))
  · exact isBlank_eq_false_of_visible (Nat.lt_of_lt_of_le (by decide) hle)
      (Nat.lt_of_le_of_lt hge (by decide))
  · decide

/-- **Of the characters that can stand in code, the blanks are those that a scan skips.** -/
theorem IsFamiliar.isBlank_eq {c : Char} (h : IsFamiliar c) : isBlank c = isSpace c := by
  have hsigns : ∀ c ∈ signs, isBlank c = isSpace c := forall_signs (by decide)
  rcases h with h | h | h
  · rw [h.isBlank_eq_false]
    exact (Segment.isSpace_eq_false (isWordStart_iff.mpr h) (by decide)).symm
  · rw [h.isBlank_eq_false]
    exact (Segment.isSpace_eq_false (isDigit_iff.mpr h) (by decide)).symm
  · exact hsigns c h

/-! ## Stripping in each mode -/

section

variable {c : Char} {text body behind : List Char}

/-- Unless it is the first of two slashes, a character in code is looked at alone. -/
theorem stripFrom_code_cons (h : c = '/' → Stops (· = '/') text) :
    stripFrom .code (c :: text) =
      if c = '"' then c :: stripFrom .string text
      else if isBlank c then stripFrom .code text
      else c :: stripFrom .code text := by
  rw [stripFrom]
  rintro after hc rfl
  exact absurd (h hc '/' rfl) (by simp)

theorem stripFrom_code_blank (h : isSpace c = true) :
    stripFrom .code (c :: text) = stripFrom .code text := by
  have hc : IsPlain c := isPlain_of_isSpace h
  rw [stripFrom_code_cons fun hslash => absurd hslash hc.2.2, if_neg hc.2.1, hc.1.isBlank_eq,
    if_pos h]

theorem stripFrom_code_solid (h : ∀ c ∈ text, IsSolid c) :
    stripFrom .code (text ++ behind) = text ++ stripFrom .code behind := by
  induction text with
  | nil => rfl
  | cons c text ih =>
    obtain ⟨hc, hspace⟩ := h c List.mem_cons_self
    rw [List.cons_append, stripFrom_code_cons fun hslash => absurd hslash hc.2.2, if_neg hc.2.1,
      hc.1.isBlank_eq, hspace, if_neg Bool.false_ne_true,
      ih fun d hd => h d (List.mem_cons_of_mem c hd), List.cons_append]

theorem stripFrom_string (h : '"' ∉ body) :
    stripFrom .string (body ++ behind) = body ++ stripFrom .string behind := by
  induction body with
  | nil => rfl
  | cons c body ih =>
    obtain ⟨hc, hbody⟩ := not_or.mp (mt List.mem_cons.mpr h)
    rw [List.cons_append, stripFrom, if_neg (Ne.symm hc), ih hbody, List.cons_append]

theorem stripFrom_comment (h : '\n' ∉ body) :
    stripFrom .comment (body ++ behind) = stripFrom .comment behind := by
  induction body with
  | nil => rfl
  | cons c body ih =>
    obtain ⟨hc, hbody⟩ := not_or.mp (mt List.mem_cons.mpr h)
    rw [List.cons_append, stripFrom, if_neg (Ne.symm hc), ih hbody]

/-- At the end of its line a comment is over. -/
theorem stripFrom_comment_of_stops (h : Stops (· ≠ '\n') behind) :
    stripFrom .comment behind = stripFrom .code behind := by
  cases behind with
  | nil => rfl
  | cons c behind =>
    obtain rfl : c = '\n' := by simpa using h c rfl
    rw [stripFrom_code_blank rfl, stripFrom, if_pos rfl]

end

/-! ## Stripping segment by segment -/

/-- **What is left of a segment** without the trivia of a source. -/
def Segment.kept : Segment → List Char
  | space _ | comment _ => []
  | lexeme _ chars => chars
  | stray c => if isBlank c then [] else [c]
  | unclosed body => '"' :: body

/-- **What is left of a segment** stands before what is left behind it. -/
theorem stripFrom_append_of_fits {s : Segment} {behind : List Char} (h : s.Fits behind) :
    stripFrom .code (s.text ++ behind) = s.kept ++ stripFrom .code behind := by
  have quotation (text : List Char) :
      stripFrom .code ('"' :: text) = '"' :: stripFrom .string text := by
    rw [stripFrom_code_cons fun hslash => absurd hslash (by decide), if_pos rfl]
  cases s with
  | space c =>
    cases h with
    | space hc => exact stripFrom_code_blank hc
  | comment body =>
    cases h with
    | comment hb hstop =>
      show stripFrom .code ('/' :: '/' :: (body ++ behind)) = stripFrom .code behind
      rw [stripFrom, stripFrom_comment hb, stripFrom_comment_of_stops hstop]
  | lexeme kind text =>
    by_cases hs : kind = .string
    · subst hs
      obtain ⟨hb⟩ := h.isLexeme.isQuoted
      rename_i body
      show stripFrom .code ('"' :: (body ++ ['"'] ++ behind)) = _
      rw [quotation, List.append_assoc, stripFrom_string hb, List.singleton_append, stripFrom,
        if_pos rfl]
      simp [Segment.kept]
    · rcases h.slash_or_isSolid hs with ⟨rfl, hstop⟩ | hsolid
      · show stripFrom .code ('/' :: behind) = '/' :: stripFrom .code behind
        rw [stripFrom_code_cons fun _ => hstop, if_neg (by decide), if_neg (by decide)]
      · exact stripFrom_code_solid hsolid
  | stray c =>
    cases h with
    | stray _ hslash hquote =>
      show stripFrom .code (c :: behind) = (if isBlank c then [] else [c]) ++ _
      rw [stripFrom_code_cons fun h => absurd h hslash, if_neg hquote]
      split <;> rfl
  | unclosed body =>
    cases h with
    | unclosed hb =>
      show stripFrom .code ('"' :: (body ++ [])) = '"' :: body ++ []
      rw [quotation, stripFrom_string hb]
      rfl

/-- **What is left of a text** is what is left of its segments. -/
theorem stripFrom_eq_flatMap_kept (source : List Char) :
    stripFrom .code source = (Segment.cut source).flatMap Segment.kept := by
  fun_induction Segment.cut source with
  | case1 => rfl
  | case2 c rest ih =>
    rw [List.flatMap_cons, ← ih, ← stripFrom_append_of_fits (Segment.fits_first c rest),
      Segment.first_append]

/-! ## What a scan finds in a stripped source -/

/-- **What is left of what a visit finds**: the lexeme of a token, a stray character unless it is a
blank, and all the rest of the source if a string is without end. -/
def Visit.kept (v : Visit) : List Char :=
  match v.found with
  | some (.token t) => t.lexeme.toList
  | some (.fault ⟨_, .unexpected c⟩) => if isBlank c then [] else [c]
  | some (.fault ⟨_, .unterminated⟩) => v.rest
  | _ => []

theorem kept_of_mem_visits {source : String} {v : Visit} (h : v ∈ visits source) :
    v.kept = v.segment.kept := by
  obtain ⟨before, s, behind, found⟩ := v
  have hf : Finds (UInt32.ofNat (1 + before.count '\n')) s found := finds_of_mem_visits h
  cases hf with
  | token => exact String.toList_ofList
  | stray | space | comment => rfl
  | unclosed body =>
    obtain rfl : behind = [] := (fits_of_mem_visits h).eq_nil_of_unclosed
    exact List.append_nil _

theorem toList_strip (source : String) :
    (strip source).toList = (visits source).flatMap Visit.kept := by
  rw [strip, String.toList_ofList, stripFrom_eq_flatMap_kept, ← map_segment_visits,
    List.flatMap_map]
  exact List.flatMap_congr fun v hv => (kept_of_mem_visits hv).symm

/-- The lexeme of the token that a visit finds. -/
def Visit.lexeme (v : Visit) : List Char :=
  match v.found with
  | some (.token t) => t.lexeme.toList
  | _ => []

theorem toList_joinedLexemes (source : String) :
    (scan source).joinedLexemes.toList = (visits source).flatMap Visit.lexeme := by
  have hlexeme (v : Visit) : v.token?.toList.flatMap (fun t => t.lexeme.toList) = v.lexeme := by
    obtain ⟨before, s, behind, found⟩ := v
    rcases found with _ | t | f
    · rfl
    · exact List.append_nil _
    · rfl
  rw [Scan.joinedLexemes, String.toList_join, Scan.lexemes, scan_tokens, tokens_eq_visits,
    List.flatMap_map, List.flatMap_append, List.filterMap_eq_flatMap_toList, List.flatMap_assoc]
  show (visits source).flatMap (fun v => v.token?.toList.flatMap fun t => t.lexeme.toList) ++ [] = _
  rw [List.append_nil]
  exact List.flatMap_congr fun v _ => hlexeme v

/-! ## Joined lexemes -/

/-- Two concatenations of parts, of which the ones are no longer than the others, are the same only
if all of their parts are. -/
theorem flatMap_eq_flatMap_iff {α β : Type} {f g : α → List β} {as : List α}
    (h : ∀ a ∈ as, (f a).length ≤ (g a).length) :
    as.flatMap f = as.flatMap g ↔ ∀ a ∈ as, f a = g a := by
  refine ⟨fun heq => ?_, List.flatMap_congr⟩
  induction as with
  | nil => simp
  | cons a as ih =>
    have hrest : ∀ b ∈ as, (f b).length ≤ (g b).length := fun b hb => h b (List.mem_cons_of_mem a hb)
    have hsum : (as.flatMap f).length ≤ (as.flatMap g).length := by
      rw [List.length_flatMap, List.length_flatMap]
      exact List.sum_le_sum hrest
    rw [List.flatMap_cons, List.flatMap_cons] at heq
    -- neither the first parts nor the others can make up for a difference
    have hlength : (f a).length = (g a).length := by
      have htotal := congrArg List.length heq
      rw [List.length_append, List.length_append] at htotal
      have hfirst := h a List.mem_cons_self
      omega
    obtain ⟨hfirst, hothers⟩ := List.append_inj heq hlength
    intro b hb
    rcases List.mem_cons.mp hb with rfl | hb
    · exact hfirst
    · exact ih hrest hothers b hb

/-- A visit keeps no more than its lexeme if it finds no fault, or a stray blank. -/
theorem lexeme_eq_kept_iff {source : String} {v : Visit} (h : v ∈ visits source) :
    v.lexeme = v.kept ↔
      ∀ f, v.fault? = some f → ∃ c, f.cause = .unexpected c ∧ isBlank c = true := by
  obtain ⟨before, s, behind, found⟩ := v
  have hf : Finds (UInt32.ofNat (1 + before.count '\n')) s found := finds_of_mem_visits h
  cases hf with
  | token | space | comment => exact ⟨fun _ => nofun, fun _ => rfl⟩
  | stray c =>
    show [] = (if isBlank c then [] else [c]) ↔ _
    constructor
    · intro heq f hfault
      obtain rfl := Option.some.inj hfault
      exact ⟨c, rfl, by simpa using heq⟩
    · intro hall
      obtain ⟨d, hd, hblank⟩ := hall _ rfl
      obtain rfl : c = d := Cause.unexpected.inj hd
      rw [if_pos hblank]
  | unclosed body =>
    have hne : [] ≠ Segment.text (.unclosed body) ++ behind := nofun
    refine ⟨fun heq => absurd heq hne, fun hall => ?_⟩
    obtain ⟨d, hd, -⟩ := hall _ rfl
    cases hd

theorem length_lexeme_le {v : Visit} : v.lexeme.length ≤ v.kept.length := by
  obtain ⟨before, s, behind, found⟩ := v
  rcases found with _ | t | f
  · exact Nat.zero_le _
  · exact Nat.le_refl _
  · exact Nat.zero_le _

theorem joinedLexemes_eq_strip_iff (source : String) :
    (scan source).joinedLexemes = strip source ↔
      ∀ f ∈ faults source, ∃ c, f.cause = .unexpected c ∧ isBlank c = true := by
  rw [← String.toList_inj, toList_joinedLexemes, toList_strip,
    flatMap_eq_flatMap_iff fun _ _ => length_lexeme_le, faults_eq_visits]
  constructor
  · intro h f hf
    obtain ⟨v, hv, hf⟩ := List.mem_filterMap.mp hf
    exact (lexeme_eq_kept_iff hv).mp (h v hv) f hf
  · intro h v hv
    exact (lexeme_eq_kept_iff hv).mpr fun f hf => h f (List.mem_filterMap.mpr ⟨v, hv, hf⟩)

/-- **A stripped source is what the visits of its scan keep**: the lexemes of the tokens, the stray
characters that are no blanks, and the string without end, in their order. It is the joined lexemes
if and only if all faults are stray blanks, as when there are none. -/
theorem strip_eq_flatMap_kept (source : String) :
    (scan source).tokens.dropLast = (visits source).filterMap Visit.token? ∧
    (scan source).report.toList =
      ((visits source).filterMap Visit.fault?).map Fault.diagnostic ∧
    (∀ v ∈ visits source, source.toList = v.before ++ v.rest) ∧
    (strip source).toList = (visits source).flatMap Visit.kept ∧
    ((scan source).joinedLexemes = strip source ↔
      ∀ f ∈ faults source, ∃ c, f.cause = .unexpected c ∧ isBlank c = true) ∧
    ((scan source).report.toList = [] → (scan source).joinedLexemes = strip source) := by
  refine ⟨?_, ?_, fun v hv => source_eq_of_mem_visits hv, toList_strip source,
    joinedLexemes_eq_strip_iff source, fun hclean => ?_⟩
  · rw [scan_tokens, tokens_eq_visits, List.dropLast_concat]
  · rw [scan_report, faults_eq_visits]
  · rw [scan_report, List.map_eq_nil_iff] at hclean
    rw [joinedLexemes_eq_strip_iff, hclean]
    nofun

/-- The blanks of a string and the slashes in it stay, those of a comment go. -/
theorem joinedLexemes_of_string_and_comment :
    (scan "a = \"b // \n\" // c\n;").report.toList = [] ∧
    (scan "a = \"b // \n\" // c\n;").joinedLexemes = strip "a = \"b // \n\" // c\n;" := by
  have clean : (scan "a = \"b // \n\" // c\n;").report.toList = [] := by decide +kernel
  obtain ⟨-, -, -, -, -, h⟩ := strip_eq_flatMap_kept "a = \"b // \n\" // c\n;"
  exact ⟨clean, h clean⟩

end Lox
