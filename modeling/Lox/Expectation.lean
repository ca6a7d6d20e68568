import Lox.Scan.Basic

/-!
# Expectations of a scan

A source can be expected to scan without errors, or to given kinds of token. A mismatch says what
was found instead.

## Main definitions

* `Mismatch`, `Mismatch.message`: how a scan differs from what was expected
* `expectClean`: the scan of a source without errors
* `expectKinds`: a source with given kinds of token, the end included
-/

namespace Lox

/-- How a scan differs from what was expected. -/
inductive Mismatch
  /-- The source has errors. -/
  | errors (found : List (UInt32 × String))
  /-- The source has other kinds of token. -/
  | kinds (source : String) (expected found : List Kind)
  deriving DecidableEq

/-- A list between brackets. -/
def bracketed (items : List String) : String := "[" ++ ", ".intercalate items ++ "]"

/-- What was expected, and what was found. -/
def Mismatch.message : Mismatch → String
  | errors found =>
    let item (error : UInt32 × String) : String :=
      "(" ++ toString error.1.toNat ++ ", " ++ Text.quoteText error.2 ++ ")"
    "Expected source to scan cleanly, but got errors:\n" ++ bracketed (found.map item)
  | kinds source expected found =>
    "Token kinds differ for " ++ Text.quoteText source ++
      "\n  expected: " ++ bracketed (expected.map Kind.title) ++
      "\n  found:    " ++ bracketed (found.map Kind.title)

/-- The scan of a source that has no errors. -/
def expectClean (source : String) : Except Mismatch Scan :=
  let s := scan source
  if s.report.hasErrors then .error (.errors s.errors) else .ok s

/-- A source without errors that has the expected kinds of token. -/
def expectKinds (source : String) (expected : List Kind) : Except Mismatch Unit := do
  let s ← expectClean source
  if s.kinds = expected then pure () else throw (.kinds source expected s.kinds)

end Lox
