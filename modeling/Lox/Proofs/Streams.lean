import Lox.CommandLine.Output

/-!
# What is left on the streams

What a command writes is told chunk by chunk, and each of the two streams gets a part of every
chunk. So both streams obey the same laws. The entries of a log have no part on the standard output,
and none on the other stream if nothing is logged.

## Main definitions

* `textOf part chunks`: what chunks leave if `part` is what is left of each

## Main results

* `textOf_append`: chunks one behind the other
* `stdout_scanLog`, `stderr_scanLog_zero`: what the log of a scan leaves
-/

namespace Lox.CommandLine

theorem join_flatMap {α : Type} (f : α → List String) (xs : List α) :
    String.join (xs.flatMap f) = String.join (xs.map fun x => String.join (f x)) := by
  induction xs with
  | nil => rfl
  | cons x xs ih =>
    rw [List.flatMap_cons, String.join_append, ih, List.map_cons, String.join_cons]

/-- **What chunks leave**, if `part` is what is left of each. -/
def textOf (part : Chunk → String) (chunks : List Chunk) : String := String.join (chunks.map part)

theorem Outcome.stdout_eq (outcome : Outcome) :
    outcome.stdout = textOf Chunk.stdout outcome.chunks := rfl

theorem Outcome.stderr_eq (outcome : Outcome) (verbosity : Nat) :
    outcome.stderr verbosity = textOf (Chunk.stderr verbosity) outcome.chunks := rfl

namespace Chunk

variable (text : String) (entry : Entry) (verbosity : Nat)

@[simp] theorem stdout_out : (out text).stdout = text := rfl

@[simp] theorem stdout_err : (err text).stdout = "" := rfl

@[simp] theorem stdout_log : (log entry).stdout = "" := rfl

@[simp] theorem stderr_out : (out text).stderr verbosity = "" := rfl

@[simp] theorem stderr_err : (err text).stderr verbosity = text := rfl

/-- Every level has to be asked for. -/
@[simp] theorem stderr_log_zero : (log entry).stderr 0 = "" := by
  have h : ¬ entry.level.threshold ≤ 0 := by cases entry.level <;> decide
  rw [stderr, if_neg h]

end Chunk

variable {part : Chunk → String}

@[simp] theorem textOf_nil : textOf part [] = "" := rfl

@[simp] theorem textOf_cons (c : Chunk) (chunks : List Chunk) :
    textOf part (c :: chunks) = part c ++ textOf part chunks := by
  simp [textOf]

@[simp] theorem textOf_append (chunks more : List Chunk) :
    textOf part (chunks ++ more) = textOf part chunks ++ textOf part more := by
  simp [textOf]

theorem textOf_map {α : Type} (f : α → Chunk) (xs : List α) :
    textOf part (xs.map f) = String.join (xs.map fun x => part (f x)) := by
  rw [textOf, List.map_map]
  rfl

theorem textOf_flatMap {α : Type} (f : α → List Chunk) (xs : List α) :
    textOf part (xs.flatMap f) = String.join (xs.map fun x => textOf part (f x)) := by
  rw [textOf, List.map_flatMap, join_flatMap]
  rfl

theorem textOf_map_eq_empty {α : Type} {f : α → Chunk} (h : ∀ x, part (f x) = "") (xs : List α) :
    textOf part (xs.map f) = "" := by
  induction xs with
  | nil => rfl
  | cons x xs ih => rw [List.map_cons, textOf_cons, h, ih, String.empty_append]

/-- **The log of a scan leaves nothing** on the standard output. -/
@[simp] theorem stdout_scanLog (source : String) : textOf Chunk.stdout (scanLog source) = "" :=
  textOf_map_eq_empty (fun _ => Chunk.stdout_log _) (events source)

@[simp] theorem stderr_scanLog_zero (source : String) :
    textOf (Chunk.stderr 0) (scanLog source) = "" :=
  textOf_map_eq_empty (fun _ => Chunk.stderr_log_zero _) (events source)

end Lox.CommandLine
