import Lox.Diagnostic.Basic

/-!
# Reports and listeners

A report collects diagnostics in the order of their arrival. A listener is anything that takes
diagnostics one by one and keeps a state of its own; it may ask for their lines and messages alone.

## Main definitions

* `Report`: the diagnostics collected so far, with `Report.push` and `Report.clear`
* `Listener σ`: what happens to a state of type `σ` at a diagnostic
* `Listener.hearAll`: what happens to it at a list of diagnostics
* `Report.listener`: the collection of diagnostics as a listener
* `Listener.within`: a listener to a part of a larger state

## Main results

* `Report.hearAll_toList`: a report grows by the diagnostics it hears
-/

namespace Lox

/-- The diagnostics collected so far. -/
structure Report where
  items : Array Diagnostic := #[]
  deriving DecidableEq

/-- A receiver of diagnostics with a state of type `σ`. -/
structure Listener (σ : Type) where
  /-- The state after an error with this line and message. -/
  plain : UInt32 → String → σ → σ
  /-- The state after a diagnostic. -/
  full : Diagnostic → σ → σ := fun d => plain d.line d.message

/-- The state after a list of diagnostics. -/
def Listener.hearAll {σ : Type} (listener : Listener σ) (ds : List Diagnostic) (state : σ) : σ :=
  ds.foldl (fun s d => listener.full d s) state

/-- A listener to a part of a larger state, given by a look at the part and its replacement. -/
def Listener.within {σ τ : Type} (listener : Listener σ) (part : τ → σ) (replace : σ → τ → τ) :
    Listener τ where
  plain line message whole := replace (listener.plain line message (part whole)) whole
  full d whole := replace (listener.full d (part whole)) whole

namespace Report

/-- The report of nothing. -/
def empty : Report := {}

/-- The diagnostics, in order. -/
def toList (r : Report) : List Diagnostic := r.items.toList

/-- The report with one more diagnostic. -/
def push (r : Report) (d : Diagnostic) : Report := ⟨r.items.push d⟩

/-- The report with nothing left. -/
def clear (_ : Report) : Report := empty

/-- The number of diagnostics. -/
def size (r : Report) : Nat := r.items.size

/-- Whether there are no diagnostics. -/
def isEmpty (r : Report) : Bool := r.items.isEmpty

/-- Whether one of the diagnostics is an error. -/
def hasErrors (r : Report) : Bool := r.items.any (·.isError)

@[simp] theorem toList_empty : empty.toList = [] := rfl

@[simp] theorem toList_push (r : Report) (d : Diagnostic) :
    (r.push d).toList = r.toList ++ [d] := by
  simp [toList, push]

theorem size_eq (r : Report) : r.size = r.toList.length := rfl

theorem hasErrors_eq (r : Report) : r.hasErrors = r.toList.any (·.isError) := by
  simp [hasErrors, toList]

/-- The collection of everything: a plain error becomes a diagnostic without a code. -/
def listener : Listener Report where
  plain line message r := r.push ((Diagnostic.error message).withLine line)
  full d r := r.push d

/-- **A report grows by the diagnostics it hears.** -/
theorem hearAll_toList (ds : List Diagnostic) (r : Report) :
    (listener.hearAll ds r).toList = r.toList ++ ds := by
  induction ds generalizing r with
  | nil => simp [Listener.hearAll]
  | cons d ds ih =>
    have := ih (r.push d)
    simp_all [Listener.hearAll, listener]

end Report

end Lox
