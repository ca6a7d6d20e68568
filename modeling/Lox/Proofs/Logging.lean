import Lox.Proofs.LineNumbers
import Lox.Scan.Event

/-!
# The log of a scan

A scan tells its log of a token or of a fault in the moment in which it finds it. So the log is in
step with the tokens and the diagnostics at every visit: it has one entry for each of them, none
for anything else, and the entries stand in the order of the source. The entry at the beginning
tells the size of the source, and the one at the end how much was found.

## Main definitions

* `Token.traced`, `Diagnostic.noted`: what the log says of a token and of a diagnostic
* `opening`, `closing`: what it says at the beginning and at the end
* `Narrates vs ts ds es`: visits that find tokens and report diagnostics, with the entries on them
* `IsLogged`: the log of a whole scan

## Main results

* `Narrates.hear`: one more visit keeps the log in step
* `narrates_heard`: any visits, one after the other
* `scan_isLogged`: the log of a scan
-/

namespace Lox

/-! ## Entries -/

/-- An entry about a scan. -/
def scanEntry (level : Level) (message : String) (fields : List (String × Field)) : Entry :=
  { level, target := "lox_lexer::scanner", message, fields }

/-- **What the log says of a token**: its kind, its lexeme and its line. -/
def Token.traced (t : Token) : Entry :=
  scanEntry .trace "token"
    [("kind", .plain t.kind.name), ("lexeme", .quoted t.lexeme), ("line", .count t.line.toNat)]

/-- **What the log says of a diagnostic**: its line and its message. -/
def Diagnostic.noted (d : Diagnostic) : Entry :=
  scanEntry .debug "scan error" [("line", .count d.line.toNat), ("error", .plain d.message)]

/-- What the log says at the beginning: the number of bytes of the source. -/
def opening (bytes : Nat) : Entry :=
  scanEntry .debug "scanning source" [("bytes", .count bytes)]

/-- What the log says at the end: the numbers of tokens and errors, and the last line. -/
def closing (tokens errors lines : Nat) : Entry :=
  scanEntry .debug "scan finished"
    [("tokens", .count tokens), ("errors", .count errors), ("lines", .count lines)]

/-- What the log says of a finding. -/
def Finding.told : Finding → Entry
  | token t => t.traced
  | fault f => f.diagnostic.noted

/-- The entry of an event is what the log says of the finding: the line and the message of a fault
are those of its diagnostic. -/
theorem Finding.entry_event (f : Finding) : f.event.entry = f.told := by
  cases f with
  | token t => rfl
  | fault f =>
    rw [told, Diagnostic.noted, f.diagnostic_line, f.diagnostic_message]
    rfl

/-! ## Visits and entries in step -/

/-- **Visits with the tokens, the diagnostics and the entries that come of them.** A visit adds one
token and the entry on it, or one diagnostic and the entry on it, or nothing. -/
inductive Narrates : List Visit → List Token → List Diagnostic → List Entry → Prop
  | nil : Narrates [] [] [] []
  | nothing {vs : List Visit} {ts : List Token} {ds : List Diagnostic} {es : List Entry}
      {v : Visit} : Narrates vs ts ds es → v.found = none → Narrates (vs ++ [v]) ts ds es
  | token {vs : List Visit} {ts : List Token} {ds : List Diagnostic} {es : List Entry}
      {v : Visit} {t : Token} : Narrates vs ts ds es → v.token? = some t →
      Narrates (vs ++ [v]) (ts ++ [t]) ds (es ++ [t.traced])
  | fault {vs : List Visit} {ts : List Token} {ds : List Diagnostic} {es : List Entry}
      {v : Visit} {f : Fault} : Narrates vs ts ds es → v.fault? = some f →
      Narrates (vs ++ [v]) ts (ds ++ [f.diagnostic]) (es ++ [f.diagnostic.noted])

namespace Narrates

variable {vs : List Visit} {ts : List Token} {ds : List Diagnostic} {es : List Entry}

/-- The entries of the most detailed level are those on the tokens. -/
theorem filter_trace (h : Narrates vs ts ds es) :
    es.filter (·.level = .trace) = ts.map Token.traced := by
  induction h with
  | nil => rfl
  | nothing _ _ ih => exact ih
  | token _ _ ih => rw [List.filter_append, ih, List.map_append]; rfl
  | fault _ _ ih => rw [List.filter_append, ih]; exact List.append_nil _

/-- The other entries are those on the diagnostics. -/
theorem filter_debug (h : Narrates vs ts ds es) :
    es.filter (·.level = .debug) = ds.map Diagnostic.noted := by
  induction h with
  | nil => rfl
  | nothing _ _ ih => exact ih
  | token _ _ ih => rw [List.filter_append, ih]; exact List.append_nil _
  | fault _ _ ih => rw [List.filter_append, ih, List.map_append]; rfl

/-- There is one entry for each token and each diagnostic, and no other. -/
theorem length_eq (h : Narrates vs ts ds es) : es.length = ts.length + ds.length := by
  induction h with
  | nil => rfl
  | nothing _ _ ih => exact ih
  | token _ _ ih | fault _ _ ih =>
    simp only [List.length_append, List.length_singleton]
    omega

end Narrates

/-- The tokens so far, the last one first, and the report so far. -/
def heard (vs : List Visit) : List Token × Report :=
  (vs.filterMap Visit.found).foldl (hear Report.listener) ([], .empty)

/-- The entries so far. -/
def toldOf (vs : List Visit) : List Entry :=
  (vs.filterMap Visit.found).map Finding.told

/-- **One more visit keeps the log in step** with what a scan has heard. -/
theorem Narrates.hear {vs : List Visit}
    (h : Narrates vs (heard vs).1.reverse (heard vs).2.toList (toldOf vs)) (v : Visit) :
    Narrates (vs ++ [v]) (heard (vs ++ [v])).1.reverse (heard (vs ++ [v])).2.toList
      (toldOf (vs ++ [v])) := by
  have hheard : heard (vs ++ [v]) = v.found.toList.foldl (Lox.hear Report.listener) (heard vs) := by
    rw [heard, List.filterMap_append, List.foldl_append, ← heard]
    cases hv : v.found <;> simp [hv]
  have htold : toldOf (vs ++ [v]) = toldOf vs ++ v.found.toList.map Finding.told := by
    rw [toldOf, List.filterMap_append, List.map_append, ← toldOf]
    cases hv : v.found <;> simp [hv]
  rw [hheard, htold]
  cases hv : v.found with
  | none =>
    simpa using h.nothing hv
  | some f =>
    cases f with
    | token t =>
      have ht : v.token? = some t := by rw [Visit.token?, hv]; rfl
      simpa [Lox.hear, Finding.told] using h.token ht
    | fault f =>
      have hf : v.fault? = some f := by rw [Visit.fault?, hv]; rfl
      have hpush : (Report.listener.full f.diagnostic (heard vs).2).toList =
          (heard vs).2.toList ++ [f.diagnostic] := Report.toList_push _ _
      simpa [Lox.hear, hpush, Finding.told] using h.fault hf

/-- **After any visits the log is in step** with what a scan has heard. -/
theorem narrates_heard (vs : List Visit) :
    Narrates vs (heard vs).1.reverse (heard vs).2.toList (toldOf vs) := by
  induction vs using List.reverseRecOn with
  | nil => exact .nil
  | append_singleton vs v ih => exact ih.hear v

/-! ## The whole log -/

/-- A later visit is to a segment behind the earlier one. -/
theorem Segment.pairwise_visits (before : List Char) (line : UInt32) (ss : List Segment) :
    (visits before line ss).Pairwise fun v w => v.before ++ v.segment.text <+: w.before := by
  induction ss generalizing before line with
  | nil => exact .nil
  | cons s ss ih =>
    refine List.pairwise_cons.mpr ⟨fun w hw => ?_, ih _ _⟩
    obtain ⟨pre, _, _, hb, _, _⟩ := Segment.eq_of_mem_visits hw
    rw [hb]
    exact List.prefix_append _ _

/-- **The log of a scan.** Between the entries at the beginning and at the end stand those on the
findings, in the order of the source; the entry at the end counts what was found, the token at the
end of the source included. -/
structure IsLogged (source : String) (log : List Entry) (ts : List Token) (eof : Token)
    (told : List Entry) : Prop where
  tokens : (scan source).tokens = ts ++ [eof]
  isEof : eof.isEof = true
  log_eq : log = opening source.toUTF8.size :: told ++
    [closing (scan source).tokens.length (scan source).report.toList.length eof.line.toNat]
  narrates : Narrates (visits source) ts (scan source).report.toList told
  /-- The visits pass through the source from its beginning to its end. -/
  ordered : (visits source).Pairwise fun v w => v.before ++ v.segment.text <+: w.before
  /-- An entry has the line at which the segment begins, whatever lines the segment has. -/
  lines : ∀ v ∈ visits source, source.toList = v.before ++ v.rest ∧ v.CountsLines
  traced : told.filter (·.level = .trace) = ts.map Token.traced
  noted : told.filter (·.level = .debug) = (scan source).report.toList.map Diagnostic.noted
  length_told : told.length = ts.length + (scan source).report.toList.length

theorem scanWith_eq_heard (source : String) :
    scanWith Report.listener source .empty =
      ((heard (visits source)).1.reverse ++ [Token.eof (lastLine source)],
        (heard (visits source)).2) := by
  rw [heard, filterMap_found_visits]
  rfl

/-- **Every scan is logged**: one entry for each token but the end of the source and one for each
diagnostic, at the moments at which they are found. -/
theorem scan_isLogged (source : String) :
    ∃ ts eof told, IsLogged source ((events source).map Event.entry) ts eof told := by
  have htokens : (scan source).tokens =
      (heard (visits source)).1.reverse ++ [Token.eof (lastLine source)] :=
    congrArg Prod.fst (scanWith_eq_heard source)
  have hreport : (scan source).report = (heard (visits source)).2 := by
    rw [scan, scanWith_eq_heard]
  have narrates := narrates_heard (visits source)
  rw [← hreport] at narrates
  refine ⟨(heard (visits source)).1.reverse, Token.eof (lastLine source), toldOf (visits source),
    htokens, rfl, ?_, narrates, Segment.pairwise_visits _ _ _, fun v hv => ?_,
    narrates.filter_trace, narrates.filter_debug, narrates.length_eq⟩
  · rw [toldOf, filterMap_found_visits, scan_tokens, scan_report, List.length_map, events,
      List.map_append, List.map_cons, List.map_map]
    congr 2
    exact List.map_congr_left fun f _ => f.entry_event
  · exact ⟨source_eq_of_mem_visits hv, countsLines_of_mem_visits hv⟩

end Lox
