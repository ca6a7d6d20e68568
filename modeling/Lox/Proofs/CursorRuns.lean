import Lox.Proofs.CursorLoops
import Lox.Proofs.LineSplitting
import Mathlib.Data.List.Chain

/-!
# A scan by byte offsets is safe and makes progress

In whatever state a scan is, its offsets are in order, in the source, and between two characters;
so no slice breaks it. Each step takes a character or leads on towards the next one, which bounds
the loops, and each call of the outer loop takes a segment with at most one finding. In the end the
scan has found what there is to find.

## Main definitions

* `Cursor.IsRun text listener state run`: states of a scan, a step apart, from the first one on
* `Cursor.IsSafe source s`: offsets at which the source can be sliced
* `Cursor.Leaves listener s t passed`: what a call leaves behind that passes a text
* `Cursor.Adds listener s t found`: what is found on the way from a state to another
* `Cursor.ScansSafely listener source state`: safety and progress of a scan

## Main results

* `Cursor.IsRun.exists_stands`: every state of a run is where its point says
* `Cursor.Stands.length_le`, `Cursor.Stands.countP_opening_le`: the steps and the calls of a run
* `Cursor.reaches_through`: a scan cuts off the segments of its text
* `Cursor.scansSafely`: every scan is safe and makes progress
-/

namespace Lox.Cursor

open StateTransition (Reaches)
open Text (byteLength)

variable {σ : Type} {text before lexeme rest : List Char} {listener : Listener σ} {state : σ}
  {s t u : Cursor σ}

/-! ## Runs -/

/-- A step from one state to the other. -/
def Steps (text : List Char) (listener : Listener σ) (s t : Cursor σ) : Prop :=
  s.step text listener = some t

/-- **A run of a scan**: states a step apart, from the first one on. -/
structure IsRun (text : List Char) (listener : Listener σ) (state : σ) (run : List (Cursor σ)) :
    Prop where
  head : run.head? = some (initial text state)
  steps : run.IsChain (Steps text listener)

theorem IsRun.exists_eq_cons {run : List (Cursor σ)} (h : IsRun text listener state run) :
    ∃ after, run = initial text state :: after ∧
      (initial text state :: after).IsChain (Steps text listener) := by
  obtain ⟨after, rfl⟩ := List.head?_eq_some_iff.mp h.head
  exact ⟨after, rfl, h.steps⟩

theorem stands_initial (text : List Char) (state : σ) :
    (initial text state).Stands text [] [] text :=
  ⟨⟨rfl, rfl, rfl⟩, trivial⟩

/-- Every state on the way from one that is where its point says is so, too. -/
theorem Stands.of_mem {run : List (Cursor σ)} (h : s.Stands text before lexeme rest)
    (hrun : (s :: run).IsChain (Steps text listener)) (ht : t ∈ s :: run) :
    ∃ before lexeme rest, t.Stands text before lexeme rest := by
  induction run generalizing s before lexeme rest with
  | nil =>
    obtain rfl := List.mem_singleton.mp ht
    exact ⟨_, _, _, h⟩
  | cons u run ih =>
    obtain ⟨hstep, hchain⟩ := List.isChain_cons_cons.mp hrun
    rcases List.mem_cons.mp ht with rfl | ht
    · exact ⟨_, _, _, h⟩
    · obtain ⟨_, _, _, hu, -⟩ := h.leads hstep
      exact ih hu hchain ht

/-- **Every state of a run is where its point says.** -/
theorem IsRun.exists_stands {run : List (Cursor σ)} (h : IsRun text listener state run)
    (hs : s ∈ run) : ∃ before lexeme rest, s.Stands text before lexeme rest := by
  obtain ⟨after, rfl, hchain⟩ := h.exists_eq_cons
  exact (stands_initial text state).of_mem hchain hs

/-- **The steps of a run** are bounded by the characters that are left. -/
theorem Stands.length_le {run : List (Cursor σ)} (h : s.Stands text before lexeme rest)
    (hrun : (s :: run).IsChain (Steps text listener)) :
    run.length ≤ 4 * rest.length + s.point.rank := by
  induction run generalizing s before lexeme rest with
  | nil => exact Nat.zero_le _
  | cons u run ih =>
    obtain ⟨hstep, hchain⟩ := List.isChain_cons_cons.mp hrun
    obtain ⟨_, _, rest', hu, hleads⟩ := h.leads hstep
    have hlength := ih hu hchain
    rw [List.length_cons]
    rcases hleads with ⟨c, rfl⟩ | ⟨rfl, hrank⟩
    · have hrank := u.point.rank_le
      rw [List.length_cons]
      omega
    · omega

/-- **The calls of a run** are not more than the characters that are left. -/
theorem Stands.countP_opening_le {run : List (Cursor σ)} (h : s.Stands text before lexeme rest)
    (hrun : (s :: run).IsChain (Steps text listener)) :
    (s :: run).countP (·.point = .opening) ≤ rest.length := by
  induction run generalizing s before lexeme rest with
  | nil =>
    by_cases hp : s.point = .opening
    · have hshows := h.shows
      rw [hp] at hshows
      simpa [hp] using Nat.succ_le_of_lt (List.length_pos_iff.mpr hshows.2)
    · simp [hp]
  | cons u run ih =>
    obtain ⟨hstep, hchain⟩ := List.isChain_cons_cons.mp hrun
    obtain ⟨_, _, rest', hu, hleads⟩ := h.leads hstep
    have hcount := ih hu hchain
    rw [List.countP_cons]
    rcases hleads with ⟨c, rfl⟩ | ⟨rfl, hrank⟩
    · rw [List.length_cons]
      split <;> omega
    · -- no rank is lower than that of the beginning of a call
      have hp : s.point ≠ .opening := by
        intro hp
        rw [hp] at hrank
        exact absurd hrank (Nat.not_lt_zero _)
      simpa [hp] using hcount

/-! ## Findings -/

/-- **What is found on the way** from one state to the other is added to the tokens, told to the
listener and logged. -/
structure Adds (listener : Listener σ) (s t : Cursor σ) (found : List Finding) : Prop where
  tokens : t.tokens = s.tokens ++ found.filterMap Finding.token?
  errors : t.errors = s.errors + (found.filterMap Finding.fault?).length
  heard : t.heard =
    listener.hearAll ((found.filterMap Finding.fault?).map Fault.diagnostic) s.heard
  log : t.log = s.log ++ found.map Finding.event

theorem Adds.trans {found more : List Finding} (h : Adds listener s t found)
    (h' : Adds listener t u more) : Adds listener s u (found ++ more) where
  tokens := by rw [h'.tokens, h.tokens, List.filterMap_append, List.append_assoc]
  errors := by
    rw [h'.errors, h.errors, List.filterMap_append, List.length_append, Nat.add_assoc]
  heard := by
    rw [h'.heard, h.heard, List.filterMap_append, List.map_append, Listener.hearAll,
      Listener.hearAll, Listener.hearAll, List.foldl_append]
  log := by rw [h'.log, h.log, List.map_append, List.append_assoc]

/-- What is found in a segment is added behind it. -/
theorem adds_behind (seg : Segment) (s : Cursor σ) :
    Adds listener s (s.behind listener seg) (seg.finding? s.line).toList := by
  unfold behind
  cases seg.finding? s.line with
  | none => exact ⟨(List.append_nil _).symm, rfl, rfl, (List.append_nil _).symm⟩
  | some finding =>
    cases finding with
    | token token => exact ⟨rfl, rfl, rfl, rfl⟩
    | fault fault => exact ⟨(List.append_nil _).symm, rfl, rfl, rfl⟩

/-! ## The whole scan -/

/-- **The cursor behind segments**, with what is found in them. -/
def through (listener : Listener σ) (segments : List Segment) (s : Cursor σ) : Cursor σ :=
  segments.foldl (fun s seg => s.opened.behind listener seg) s

theorem line_behind (seg : Segment) (s : Cursor σ) :
    (s.behind listener seg).line = lineAfter s.line seg.text := record_line _ _

theorem line_through (segments : List Segment) (s : Cursor σ) :
    (s.through listener segments).line =
      segments.foldl (fun line seg => lineAfter line seg.text) s.line := by
  induction segments generalizing s with
  | nil => rfl
  | cons seg segments ih => exact (ih _).trans (by rw [line_behind]; rfl)

theorem adds_through (segments : List Segment) (s : Cursor σ) :
    Adds listener s (s.through listener segments) (findingsFrom s.line segments) := by
  induction segments generalizing s with
  | nil => exact ⟨(List.append_nil _).symm, rfl, rfl, (List.append_nil _).symm⟩
  | cons seg segments ih =>
    have hrest := ih (s.opened.behind listener seg)
    rw [line_behind] at hrest
    rw [findingsFrom_cons]
    exact Adds.trans ⟨(adds_behind seg s.opened).tokens, (adds_behind seg s.opened).errors,
      (adds_behind seg s.opened).heard, (adds_behind seg s.opened).log⟩ hrest

/-- The cursor is behind the segment. -/
theorem At.behind {seg : Segment} (h : At text s before [] (seg.text ++ rest)) :
    At text (s.behind listener seg) before seg.text rest :=
  h.past.congr (record_start _ _) (record_current _ _)

theorem reaches_of_inCall (h : Reaches (inCall text listener) s t) :
    Reaches (step text listener) s t := by
  refine Relation.ReflTransGen.mono (fun a b hab => ?_) s t h
  rw [Option.mem_def, inCall] at hab
  split at hab
  · cases hab
  · exact hab

/-- Where something is left, a call begins. -/
theorem reaches_opened {c : Char} (h : At text s before lexeme (c :: rest))
    (hp : s.point = .between) : Reaches (step text listener) s s.opened := by
  refine .single (step_of_move? ?_ (by simp [hp]))
  rw [move?, hp]
  exact congrArg some (if_pos (h.lt_iff.mpr (List.cons_ne_nil c rest)))

/-- Where nothing is left, the scan finishes. -/
theorem reaches_finish (h : At text s before lexeme []) (hp : s.point = .between) :
    Reaches (step text listener) s s.finish := by
  refine .single (step_of_move? ?_ (by simp [hp]))
  rw [move?, hp]
  exact congrArg some (if_neg (mt h.lt_iff.mp (not_not.mpr rfl)))

/-- **A scan cuts off the segments of its text**, and finishes behind them. -/
theorem reaches_through (h : At text s before lexeme rest) (hp : s.point = .between) :
    Reaches (step text listener) s (s.through listener (Segment.cut rest)).finish := by
  fun_induction Segment.cut rest generalizing s before lexeme with
  | case1 => exact reaches_finish h hp
  | case2 c rest ih =>
    have hopened := h.opened
    rw [← Segment.first_append] at hopened
    have hcall : Reaches (inCall text listener) s.opened
        (s.opened.behind listener (Segment.first c rest).1) :=
      reaches_behind rfl (Segment.fits_first c rest) hopened
    exact (reaches_opened h hp).trans ((reaches_of_inCall hcall).trans (ih hopened.behind rfl))

/-- **What a scan has found** where it is finished. -/
structure HasScanned (listener : Listener σ) (source : String) (state : σ) (final : Cursor σ) :
    Prop where
  point : final.point = .finished
  found : (final.tokens, final.heard) = scanWith listener source state
  errors : final.errors = (faults source).length
  log : final.log = events source

theorem hasScanned_finish_through (listener : Listener σ) (source : String) (state : σ) :
    HasScanned listener source state
      ((initial source.toList state).through listener (Segment.cut source.toList)).finish := by
  have hadds : Adds listener (initial source.toList state) _ (findings source) :=
    adds_through (Segment.cut source.toList) _
  have hline : ((initial source.toList state).through listener (Segment.cut source.toList)).line =
      lastLine source := line_through _ _
  refine ⟨rfl, ?_, ?_, ?_⟩
  · rw [scanWith_eq]
    refine Prod.ext ?_ hadds.heard
    rw [finish, hline, hadds.tokens]
    rfl
  · exact hadds.errors.trans (Nat.zero_add _)
  · rw [finish, hline, hadds.log, hadds.tokens, hadds.errors, events, initial, byteLength_toList]
    simp [faults, Lox.tokens]

/-- **The states of a whole scan** are a run to the end. -/
theorem exists_run (listener : Listener σ) (source : String) (state : σ) :
    ∃ run final, IsRun source.toList listener state run ∧ run.getLast? = some final ∧
      HasScanned listener source state final := by
  have hreaches : Reaches (step source.toList listener) (initial source.toList state) _ :=
    reaches_through (stands_initial source.toList state).toAt rfl
  obtain ⟨run, hchain, hlast⟩ := List.exists_isChain_cons_of_relationReflTransGen hreaches
  refine ⟨initial source.toList state :: run, _, ⟨rfl, hchain⟩, ?_,
    hasScanned_finish_through listener source state⟩
  rw [List.getLast?_eq_some_getLast (List.cons_ne_nil _ _), hlast]

/-! ## Safety and progress -/

/-- **Offsets at which the source can be sliced.** They are in order, in the source, and between two
characters; where a string has ended, so are those of its value. No slice that was read is missing.
-/
structure IsSafe (source : String) (s : Cursor σ) : Prop where
  start_le : s.start ≤ s.current
  current_le : s.current ≤ source.utf8ByteSize
  start_isValid : String.Pos.Raw.IsValid source ⟨s.start⟩
  current_isValid : String.Pos.Raw.IsValid source ⟨s.current⟩
  value : ∀ opened, s.point = .closed opened → s.start + 1 ≤ s.current - 1 ∧
    String.Pos.Raw.IsValid source ⟨s.start + 1⟩ ∧ String.Pos.Raw.IsValid source ⟨s.current - 1⟩
  point_ne : s.point ≠ .broken

/-- **What a call leaves behind** that passes a text: one more token, of which it is the lexeme, one
more fault, or neither if it is a blank or a comment. No two of them hold at once, since each says
of both the tokens and the faults whether there is one more. -/
inductive Leaves (listener : Listener σ) (s t : Cursor σ) (passed : List Char) : Prop
  | token (token : Token) : token.lexeme = String.ofList passed → t.tokens = s.tokens ++ [token] →
      t.errors = s.errors → t.heard = s.heard → Leaves listener s t passed
  | fault (fault : Fault) : t.tokens = s.tokens → t.errors = s.errors + 1 →
      t.heard = listener.full fault.diagnostic s.heard → Leaves listener s t passed
  | trivia : (∃ c, isSpace c = true ∧ passed = [c]) ∨
      (∃ body, '\n' ∉ body ∧ passed = '/' :: '/' :: body) → t.tokens = s.tokens →
      t.errors = s.errors → t.heard = s.heard → Leaves listener s t passed

/-- An offset between two parts of the source is one between two characters. -/
theorem isValid_of_eq {source : String} {front back : List Char} {offset : Nat}
    (hsource : source.toList = front ++ back) (hoffset : offset = byteLength front) :
    String.Pos.Raw.IsValid source ⟨offset⟩ := by
  rw [hoffset]
  exact isValid_byteLength hsource

theorem Stands.isSafe {source : String} (h : s.Stands source.toList before lexeme rest) :
    s.IsSafe source where
  start_le := by
    rw [h.start_eq, h.current_eq]
    exact Nat.le_add_right _ _
  current_le := by
    rw [← byteLength_toList, h.text_eq, h.current_eq, Text.byteLength_append,
      Text.byteLength_append, ← Nat.add_assoc]
    exact Nat.le_add_right _ _
  start_isValid := isValid_of_eq h.text_eq h.start_eq
  current_isValid := by
    apply isValid_of_eq (h.text_eq.trans (List.append_assoc _ _ _).symm)
    rw [h.current_eq, Text.byteLength_append]
  value := by
    intro opened hp
    have hshows := h.shows
    rw [hp] at hshows
    obtain ⟨body, rfl⟩ := hshows
    -- the value stands between the quotation marks, each of which is one byte
    have hquote : Char.utf8Size '"' = 1 := by decide
    have hstart : s.start + 1 = byteLength (before ++ ['"']) := by simp [h.start_eq, hquote]
    have hcurrent : s.current - 1 = byteLength (before ++ ['"'] ++ body) := by
      simp [h.current_eq, hquote, Nat.add_assoc, Nat.add_comm 1]
    have htext : source.toList = before ++ ['"'] ++ (body ++ '"' :: rest) := by
      simp [h.text_eq]
    refine ⟨?_, isValid_of_eq htext hstart, ?_⟩
    · rw [hstart, hcurrent, Text.byteLength_append _ body]
      exact Nat.le_add_right _ _
    · exact isValid_of_eq (htext.trans (List.append_assoc _ _ _).symm) hcurrent
  point_ne := by
    intro hp
    have hshows := h.shows
    rwa [hp] at hshows

/-- **What is found in a segment is what a call leaves behind**: nothing in blanks and comments
only. -/
theorem Leaves.of_adds {seg : Segment} {found : Option Finding} {line : UInt32}
    (hfits : seg.Fits rest) (hfinds : Finds line seg found) (h : Adds listener s t found.toList) :
    Leaves listener s t seg.text := by
  cases hfinds with
  | token => exact .token _ rfl h.tokens h.errors h.heard
  | stray c =>
    exact .fault ⟨line, .unexpected c⟩ (h.tokens.trans (List.append_nil _)) h.errors h.heard
  | unclosed body =>
    exact .fault ⟨line, .unterminated⟩ (h.tokens.trans (List.append_nil _)) h.errors h.heard
  | space c =>
    cases hfits with
    | space hc =>
      exact .trivia (Or.inl ⟨c, hc, rfl⟩) (h.tokens.trans (List.append_nil _)) h.errors h.heard
  | comment body =>
    cases hfits with
    | comment hb =>
      exact .trivia (Or.inr ⟨body, hb, rfl⟩) (h.tokens.trans (List.append_nil _)) h.errors h.heard

/-- **A call takes a segment** of what is left. -/
theorem Stands.exists_call (h : s.Stands text before lexeme rest) (hp : s.point = .opening) :
    ∃ t, t ∈ StateTransition.eval (inCall text listener) s ∧ t.point = .between ∧
      s.current < t.current ∧
      ∃ passed, Text.slice? s.current t.current text = some passed ∧
        Leaves listener s t passed := by
  have hat := h.toAt
  have hshows := h.shows
  rw [hp] at hshows
  obtain ⟨rfl, hrest⟩ := hshows
  obtain ⟨c, rest, rfl⟩ := List.exists_cons_of_ne_nil hrest
  have hfits := Segment.fits_first c rest
  have hne := Segment.text_first_ne_nil c rest
  rw [← Segment.first_append] at hat
  generalize (Segment.first c rest).1 = seg at hat hfits hne
  generalize (Segment.first c rest).2 = rest' at hat hfits
  have hbehind : At text (s.behind listener seg) before seg.text rest' := hat.behind
  have hcurrent : s.current = (s.behind listener seg).start := by
    rw [hat.current_eq, hbehind.start_eq, Text.byteLength_nil, Nat.add_zero]
  refine ⟨s.behind listener seg, StateTransition.mem_eval.mpr ⟨reaches_behind hp hfits hat, rfl⟩,
    rfl, ?_, seg.text, ?_, .of_adds hfits (hfits.finds s.line) (adds_behind seg s)⟩
  · rw [hcurrent, hbehind.start_eq, hbehind.current_eq]
    exact Nat.lt_add_of_pos_right (byteLength_pos hne)
  · rw [hcurrent]
    exact hbehind.lexeme?_eq

/-- **Safety and progress of a scan.** In every state of every run the offsets are safe. Every call
takes some of the source and leaves at most one finding behind. Steps and calls are bounded by the
characters of the source, and there is a run to the end, where the scan has found what there is to
find. -/
structure ScansSafely (listener : Listener σ) (source : String) (state : σ) : Prop where
  isSafe : ∀ run, IsRun source.toList listener state run → ∀ s ∈ run, s.IsSafe source
  call : ∀ run, IsRun source.toList listener state run → ∀ s ∈ run, s.point = .opening →
    ∃ t, t ∈ StateTransition.eval (inCall source.toList listener) s ∧ t.point = .between ∧
      s.current < t.current ∧
      ∃ passed, Text.slice? s.current t.current source.toList = some passed ∧
        Leaves listener s t passed
  length_le : ∀ run, IsRun source.toList listener state run →
    run.length ≤ 4 * source.toList.length + 2
  calls_le : ∀ run, IsRun source.toList listener state run →
    run.countP (·.point = .opening) ≤ source.toList.length
  ends : ∃ run final, IsRun source.toList listener state run ∧ run.getLast? = some final ∧
    HasScanned listener source state final

/-- **Every scan is safe and makes progress.** -/
theorem scansSafely (listener : Listener σ) (source : String) (state : σ) :
    ScansSafely listener source state where
  isSafe := by
    intro run hrun s hs
    obtain ⟨before, lexeme, rest, hstands⟩ := hrun.exists_stands hs
    exact hstands.isSafe
  call := by
    intro run hrun s hs hp
    obtain ⟨before, lexeme, rest, hstands⟩ := hrun.exists_stands hs
    exact hstands.exists_call hp
  length_le := by
    intro run hrun
    obtain ⟨after, rfl, hchain⟩ := hrun.exists_eq_cons
    exact Nat.succ_le_succ ((stands_initial source.toList state).length_le hchain)
  calls_le := by
    intro run hrun
    obtain ⟨after, rfl, hchain⟩ := hrun.exists_eq_cons
    exact (stands_initial source.toList state).countP_opening_le hchain
  ends := exists_run listener source state

end Lox.Cursor
