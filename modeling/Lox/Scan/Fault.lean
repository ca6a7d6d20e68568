import Lox.Diagnostic.Basic
import Lox.Text.Quoted

/-!
# Faults of a source

What can be wrong with a source is a character that begins no token, a string without end, or a
number that cannot be read. Each cause has a message, a code of its own, and one remark.

## Main definitions

* `Cause`, `Fault`: what is wrong, and where
* `Fault.diagnostic`: the fault as a diagnostic
-/

namespace Lox

/-- What is wrong with a source. -/
inductive Cause
  /-- A character that begins no token. -/
  | unexpected (c : Char)
  /-- A string without end. -/
  | unterminated
  /-- A lexeme of digits that denotes no number. -/
  | invalidNumber (lexeme : String)
  deriving DecidableEq

namespace Cause

/-- What a cause says. -/
def message : Cause → String
  | unexpected _ => "Unexpected character."
  | unterminated => "Unterminated string."
  | invalidNumber _ => "Invalid number."

/-- The code, in the family `L` of lexical errors. -/
def code : Cause → Code
  | unexpected _ => ⟨'L', 1⟩
  | unterminated => ⟨'L', 2⟩
  | invalidNumber _ => ⟨'L', 3⟩

end Cause

/-- A fault at a line of the source. The line of a string without end is that of its quotation
mark. -/
structure Fault where
  line : UInt32
  cause : Cause
  deriving DecidableEq

namespace Fault

/-- What a fault says. -/
def message (fault : Fault) : String := fault.cause.message

/-- A diagnostic with one remark on the cause. -/
def diagnostic (fault : Fault) : Diagnostic :=
  let bare := ((Diagnostic.error fault.message).withCode fault.cause.code).withLine fault.line
  match fault.cause with
  | .unexpected c => bare.withNote ("found " ++ Text.quoteChar c ++ ", which starts no token")
  | .unterminated => bare.withHelp "add a closing `\"` to end the string"
  | .invalidNumber lexeme =>
    bare.withNote ("could not convert `" ++ lexeme ++ "` to a number")

@[simp] theorem diagnostic_line (fault : Fault) : fault.diagnostic.line = fault.line := by
  unfold diagnostic; split <;> rfl

@[simp] theorem diagnostic_message (fault : Fault) :
    fault.diagnostic.message = fault.message := by
  unfold diagnostic; split <;> rfl

@[simp] theorem diagnostic_code (fault : Fault) :
    fault.diagnostic.code = some fault.cause.code := by
  unfold diagnostic; split <;> rfl

@[simp] theorem diagnostic_isError (fault : Fault) : fault.diagnostic.isError = true := by
  unfold diagnostic; split <;> rfl

end Fault

end Lox
