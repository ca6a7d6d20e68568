import Lox.Proofs.Listening
import Lox.Session
import Mathlib.Data.List.DropRight
import Mathlib.Data.List.Induction

/-!
# Sessions and their histories

The steps that a session has taken tell everything about it: its sources are those that were added,
under numbers that stay with them, and its report holds what was said since the last end of all
diagnostics. Both the answer to the next step and the session after it can be told from the history
alone, and no step reaches beyond the store that it is about.

## Main definitions

* `added past`, `collected past`: the sources and the diagnostics of a history
* `Step.answer past s`: the answer to a step with a history before it
* `Session.after past`: the session after a history
* `Session.Tells session past`: a session that tells its history
* `Step.Spares s before after`: a step that leaves alone what it is not about

## Main results

* `files_step`, `toList_report_step`: what one step does to the two stores
* `files_after`, `toList_report_after`: what a history leaves in them
* `run_tellsHistory`: every step of a session
-/

namespace Lox

/-! ## Histories -/

namespace Step

/-- The source that a step adds. -/
def added? : Step → Option Source
  | add name text => some (.ofText name text)
  | _ => none

/-- What a step says: a diagnostic that is pushed or told, an error without a code, or whatever a
scan of the source alone reports. -/
def said : Step → List Diagnostic
  | push d | tellFull d => [d]
  | tell number message => [{ severity := .error, message, line := number }]
  | scan text => (Lox.scan text).report.toList
  | _ => []

/-- Whether a step ends all diagnostics. -/
def isClear : Step → Bool
  | clear => true
  | _ => false

/-- Whether a step is one that changes the report. -/
def changesReport : Step → Bool
  | push _ | tell .. | tellFull _ | scan _ | clear => true
  | _ => false

end Step

/-- **The sources of a history**, in the order in which they were added. -/
def added (past : List Step) : List Source := past.filterMap Step.added?

/-- The steps since the last end of all diagnostics. -/
def sinceClear (past : List Step) : List Step := past.rtakeWhile fun s => !s.isClear

/-- **The diagnostics of a history**: what was said since the last end of all diagnostics. -/
def collected (past : List Step) : List Diagnostic := (sinceClear past).flatMap Step.said

/-- **The answer to a step** with a history before it. -/
def Step.answer (past : List Step) : Step → Answer
  | add _ _ => .id (UInt32.ofNat (added past).length)
  | source id => .source (added past)[id.toNat]?
  | line id number => .line ((added past)[id.toNat]?.bind (·.line? number))
  | push _ | tell .. | tellFull _ | clear => .done
  | scan text => .tokens (Lox.scan text).tokens
  | list => .diagnostics (collected past)
  | render id coloured =>
    .text ("\n".intercalate
      ((collected past).map (·.render { source := (added past)[id.toNat]?, coloured })))

/-- The session after a history. -/
def Session.after (past : List Step) : Session :=
  past.foldl (fun session s => (session.step s).2) {}

/-- **A session that tells its history.** The source that was added behind so many others is found
under their number, whatever its name; the report holds the diagnostics of the history, and errors
exactly if one of these is an error. -/
structure Session.Tells (session : Session) (past : List Step) : Prop where
  source : ∀ earlier name text later, past = earlier ++ .add name text :: later →
    ∀ id : UInt32, id.toNat = (added earlier).length →
      session.sources.get? id = some (.ofText name text)
  unknown : ∀ id : UInt32, (added past).length ≤ id.toNat → session.sources.get? id = none
  report : session.report.toList = collected past
  size : session.report.size = (collected past).length
  hasErrors : session.report.hasErrors = true ↔ ∃ d ∈ collected past, d.severity = .error

/-- **A step that leaves alone what it is not about.** Only a new source changes the sources, and only
what is said or the end of all diagnostics changes the report, so that a step that asks or renders
changes neither of them. -/
structure Step.Spares (s : Step) (before after : Session) : Prop where
  sources : s.added? = none → after.sources = before.sources
  report : s.changesReport = false → after.report = before.report

@[simp] theorem added_append (past more : List Step) :
    added (past ++ more) = added past ++ added more := List.filterMap_append

theorem collected_concat (past : List Step) (s : Step) :
    collected (past ++ [s]) = if s.isClear then [] else collected past ++ s.said := by
  cases h : s.isClear with
  | true => simp [collected, sinceClear, h]
  | false => simp [collected, sinceClear, h]

theorem Session.after_concat (past : List Step) (s : Step) :
    after (past ++ [s]) = ((after past).step s).2 := by
  simp [after]

/-! ## One step -/

namespace Session

/-- The report as a part of a session. -/
def reportSlot : Slot Report Session where
  part := Session.report
  replace report session := { session with report }
  part_replace _ _ := rfl
  replace_replace _ _ _ := rfl
  replace_part _ := rfl

/-- **A scan in a session** is a scan with its report. -/
theorem scanWith_listener (source : String) (session : Session) :
    scanWith listener source session = ((Lox.scan source).tokens,
      { session with
        report := Report.listener.hearAll (Lox.scan source).report.toList session.report }) := by
  rw [scanWith_eq, scan_tokens, scan_report]
  exact congrArg (tokens source, ·) (Report.listener.hearAll_through reportSlot _ session)

variable (session : Session) (s : Step)

/-- A step adds at most a source, behind the others. -/
theorem files_step : (session.step s).2.sources.files.toList =
    session.sources.files.toList ++ s.added?.toList := by
  cases s with
  | add name text => exact Array.toList_push
  | scan source => simp [step, scanWith_listener, Step.added?]
  | _ => exact (List.append_nil _).symm

/-- A step ends all diagnostics, or says more of them. -/
theorem toList_report_step : (session.step s).2.report.toList =
    if s.isClear then [] else session.report.toList ++ s.said := by
  cases s with
  | push | tellFull | tell => exact Report.toList_push _ _
  | scan source => simp [step, scanWith_listener, Report.hearAll_toList, Step.isClear, Step.said]
  | clear => rfl
  | _ => exact (List.append_nil _).symm

theorem step_spares : s.Spares session (session.step s).2 := by
  cases s with
  | add => exact ⟨nofun, fun _ => rfl⟩
  | source | line | list | render => exact ⟨fun _ => rfl, fun _ => rfl⟩
  | push | tell | tellFull | clear => exact ⟨fun _ => rfl, nofun⟩
  | scan source =>
    refine ⟨fun _ => ?_, nofun⟩
    rw [step, scanWith_listener]

/-! ## Any number of steps -/

variable (past : List Step)

theorem files_after : (after past).sources.files.toList = added past := by
  induction past using List.reverseRecOn with
  | nil => rfl
  | append_singleton past s ih =>
    rw [after_concat, files_step, ih, added_append]
    cases h : s.added? <;> simp [added, h]

theorem toList_report_after : (after past).report.toList = collected past := by
  induction past using List.reverseRecOn with
  | nil => rfl
  | append_singleton past s ih => rw [after_concat, toList_report_step, ih, collected_concat]

theorem get?_after (id : UInt32) : (after past).sources.get? id = (added past)[id.toNat]? := by
  rw [Sources.get?, ← Array.getElem?_toList, files_after]

/-- **The answer to a step** can be told from the history. -/
theorem answer_step : ((after past).step s).1 = s.answer past := by
  cases s with
  | add name text =>
    have hsize : (after past).sources.size = (added past).length := by
      rw [← files_after]
      rfl
    exact congrArg (fun n => Answer.id (UInt32.ofNat n)) hsize
  | source id => exact congrArg Answer.source (get?_after past id)
  | line id number =>
    exact congrArg (fun found => Answer.line (found.bind (·.line? number))) (get?_after past id)
  | push | tell | tellFull | clear => rfl
  | scan source => simp [step, scanWith_listener, Step.answer]
  | list => exact congrArg Answer.diagnostics (toList_report_after past)
  | render id coloured =>
    simp only [step, Step.answer, Report.render, get?_after, toList_report_after]

theorem after_tells : (after past).Tells past where
  source := by
    rintro earlier name text later rfl id hid
    rw [get?_after, added_append, hid, List.getElem?_append_right le_rfl, Nat.sub_self]
    rfl
  unknown id hid := by rw [get?_after, List.getElem?_eq_none hid]
  report := toList_report_after past
  size := by rw [Report.size_eq, toList_report_after]
  hasErrors := by
    rw [Report.hasErrors_eq, toList_report_after, List.any_eq_true]
    simp [Diagnostic.isError]

theorem run_cons (session : Session) (s : Step) (future : List Step) :
    session.run (s :: future) = session.step s :: (session.step s).2.run future := rfl

theorem run_append (session : Session) (past future : List Step) :
    session.run (past ++ future) = session.run past ++
      (past.foldl (fun session s => (session.step s).2) session).run future := by
  induction past generalizing session with
  | nil => rfl
  | cons s past ih =>
    rw [List.cons_append, run_cons, ih, run_cons, List.foldl_cons, List.cons_append]

theorem length_run (session : Session) (steps : List Step) :
    (session.run steps).length = steps.length := by
  induction steps generalizing session with
  | nil => rfl
  | cons s steps ih => rw [run_cons, List.length_cons, ih, List.length_cons]

theorem getElem?_run (past : List Step) (s : Step) (future : List Step) :
    (run {} (past ++ s :: future))[past.length]? = some ((after past).step s) := by
  rw [run_append, List.getElem?_append_right (length_run {} past).le, length_run, Nat.sub_self]
  rfl

end Session

/-- **Every step of a session.** Its answer and the session after it are told by the steps before it,
and it leaves alone what it is not about. A new source has the number of the sources before it, as
long as there are numbers. Whatever is told through a reference to the session, or found by a scan
through one, is told to the session itself. -/
theorem run_tellsHistory (past : List Step) (s : Step) (future : List Step) :
    (Session.run {} (past ++ s :: future))[past.length]? =
      some (s.answer past, Session.after (past ++ [s])) ∧
    (Session.after (past ++ [s])).Tells (past ++ [s]) ∧
    s.Spares (Session.after past) (Session.after (past ++ [s])) ∧
    (∀ name text, s = .add name text → (added past).length < UInt32.size →
      ∃ id, s.answer past = .id id ∧ id.toNat = (added past).length) ∧
    ∀ session : Session,
      (∀ line message, (Session.listener.through .whole).plain line message session =
        (session.step (.tell line message)).2) ∧
      (∀ d, (Session.listener.through .whole).full d session = (session.step (.tellFull d)).2) ∧
      ∀ source, scanWith (Session.listener.through .whole) source session =
        ((scan source).tokens, (session.step (.scan source)).2) := by
  refine ⟨?_, Session.after_tells _, ?_, ?_, fun session => ⟨?_, ?_, ?_⟩⟩
  · rw [Session.getElem?_run, Session.after_concat, ← Session.answer_step]
  · rw [Session.after_concat]
    exact (Session.after past).step_spares s
  · rintro name text rfl hlt
    exact ⟨_, rfl, UInt32.toNat_ofNat_of_lt' hlt⟩
  · exact fun _ _ => rfl
  · exact fun _ => rfl
  · intro source
    show scanWith Session.listener source session = _
    rw [Session.step, Session.scanWith_listener]

/-- A history with a scan whose faults are forgotten. -/
def forgotten : List Step := [.add "a.lox" "@", .scan "@ \"", .clear, .push (.warning "unused")]

/-- A name that is added twice stands for two sources, a warning alone is no error, and to ask for the
diagnostics changes nothing. -/
theorem run_tells_repeated_name : (added forgotten).length < UInt32.size ∧
    (∃ (id : UInt32) (session : Session), (Session.run {}
        (forgotten ++ [.add "a.lox" "2\r\n", .list]))[4]? = some (.id id, session) ∧ id.toNat = 1 ∧
      session.sources.get? 0 = some (.ofText "a.lox" "@") ∧
      session.sources.get? 1 = some (.ofText "a.lox" "2\r\n") ∧
      session.report.toList = [.warning "unused"] ∧ session.report.hasErrors = false) ∧
    (Session.after (forgotten ++ [.list])).sources = (Session.after forgotten).sources ∧
    (Session.after (forgotten ++ [.list])).report = (Session.after forgotten).report := by
  have few : (added forgotten).length < UInt32.size := by decide
  obtain ⟨hrun, htells, -, hid, -⟩ := run_tellsHistory forgotten (.add "a.lox" "2\r\n") [.list]
  obtain ⟨-, -, hspares, -⟩ := run_tellsHistory forgotten .list []
  obtain ⟨id, hanswer, hnat⟩ := hid _ _ rfl few
  rw [hanswer] at hrun
  refine ⟨few, ⟨id, _, hrun, hnat, ?_, ?_, htells.report, ?_⟩, hspares.sources rfl,
    hspares.report rfl⟩
  · exact htells.source [] "a.lox" "@" _ rfl 0 rfl
  · exact htells.source forgotten "a.lox" "2\r\n" [] rfl 1 rfl
  · rw [Bool.eq_false_iff, ne_eq, htells.hasErrors]
    decide

end Lox
