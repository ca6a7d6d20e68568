import Lox.Scan.Basic

/-!
# Listeners to a scan

A scan tells its listener one diagnostic after the other and takes nothing back. The tokens are the
same whoever listens, and the state of a listener changes by the diagnostics of the source alone:
a listener that asks for lines and messages hears those, a report that already holds diagnostics
grows at its end, and a listener whose state is a part of a larger one leaves the rest of it alone.

## Main definitions

* `Slot σ τ`: a part of the states of type `τ` that holds a state of type `σ`
* `Slot.whole`: the part that is all of a state
* `Listener.through`: a listener to what a slot holds

## Main results

* `Listener.hearAll_through`: what is heard through a slot changes what the slot holds
* `scanWith_independent`: a scan with any listener, in any state
-/

namespace Lox

variable {σ τ : Type}

/-- **A part of a larger state** that can be looked at and replaced: what is put there is found
there, in place of all that was put there before. -/
structure Slot (σ τ : Type) where
  part : τ → σ
  replace : σ → τ → τ
  part_replace (s : σ) (t : τ) : part (replace s t) = s
  replace_replace (s s' : σ) (t : τ) : replace s (replace s' t) = replace s t
  replace_part (t : τ) : replace (part t) t = t

/-- The part that is all of a state. -/
def Slot.whole : Slot σ σ where
  part := id
  replace s _ := s
  part_replace _ _ := rfl
  replace_replace _ _ _ := rfl
  replace_part _ := rfl

namespace Listener

/-- A listener to what a slot holds. -/
def through (listener : Listener σ) (slot : Slot σ τ) : Listener τ :=
  listener.within slot.part slot.replace

/-- **What is heard through a slot** changes what the slot holds, and nothing else. -/
theorem hearAll_through (listener : Listener σ) (slot : Slot σ τ) (ds : List Diagnostic) (t : τ) :
    (listener.through slot).hearAll ds t =
      slot.replace (listener.hearAll ds (slot.part t)) t := by
  induction ds generalizing t with
  | nil => exact (slot.replace_part t).symm
  | cons d ds ih =>
    have step := ih (slot.replace (listener.full d (slot.part t)) t)
    rw [slot.part_replace, slot.replace_replace] at step
    exact step

/-- A listener that asks for lines and messages hears no more of a diagnostic. -/
theorem hearAll_plain (plain : UInt32 → String → σ → σ) (ds : List Diagnostic) (state : σ) :
    Listener.hearAll { plain } ds state =
      (ds.map fun d => (d.line, d.message)).foldl (fun s e => plain e.1 e.2 s) state := by
  rw [hearAll, List.foldl_map]

end Listener

/-- **A scan with any listener, in any state.** The tokens are those of the scan with a fresh
report. The listener hears the diagnostics of that report in order, and nothing else; one that only
asks for lines and messages hears these. A report keeps what it held and grows at its end. Through a
slot, and so through a reference to the state itself, all is the same as without it. -/
theorem scanWith_independent (listener : Listener σ) (source : String) (state : σ) :
    (scanWith listener source state).1 = (scan source).tokens ∧
    (scanWith listener source state).2 =
      (scan source).report.toList.foldl (fun s d => listener.full d s) state ∧
    (∀ plain : UInt32 → String → σ → σ, scanWith { plain } source state =
      ((scan source).tokens,
        (scan source).errors.foldl (fun s e => plain e.1 e.2 s) state)) ∧
    (∀ report : Report, (scanWith Report.listener source report).1 = (scan source).tokens ∧
      (scanWith Report.listener source report).2.toList =
        report.toList ++ (scan source).report.toList) ∧
    scanWith (listener.through .whole) source state = scanWith listener source state ∧
    ∀ {τ : Type} (slot : Slot σ τ) (t : τ), scanWith (listener.through slot) source t =
      ((scan source).tokens, slot.replace (scanWith listener source (slot.part t)).2 t) := by
  refine ⟨?_, ?_, fun plain => ?_, fun report => ⟨?_, ?_⟩, ?_, fun slot t => ?_⟩
  · rw [scanWith_eq, scan_tokens]
  · rw [scanWith_eq, scan_report]
    rfl
  · rw [scanWith_eq, scan_tokens, Scan.errors, scan_report, Listener.hearAll_plain]
  · rw [scanWith_eq, scan_tokens]
  · rw [scanWith_eq, scan_report, Report.hearAll_toList]
  · rw [scanWith_eq, scanWith_eq, Listener.hearAll_through]
    rfl
  · rw [scanWith_eq, scanWith_eq, scan_tokens, Listener.hearAll_through]

end Lox
