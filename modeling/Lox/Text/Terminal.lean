import Lox.Text.Quoted

/-!
# Texts that do not steer a terminal

A terminal obeys some control characters instead of showing them. In a text that is only to be read
they are spelled out by their code points.

## Main definitions

* `isCommand`: the control characters that a terminal obeys
* `spell`: a character, spelled out if it is one of them
* `disarm`: a text with these characters spelled out

## Main results

* `disarm_eq_self`: a text without them stays as it is
* `isCommand_of_mem_disarm`: none of them is left
-/

namespace Lox.Text

/-- The control characters that a terminal obeys: BEL, BS, FF, ESC, DEL and the codes from U+0080 to
U+009F. Tabs and the ends of lines belong to the text. -/
def isCommand (c : Char) : Bool :=
  c = '\x07' || c = '\x08' || c = '\x0c' || c = '\x1b' || (0x7f ≤ c.toNat && c.toNat < 0xa0)

/-- A character by two hexadecimal digits. -/
def twoDigits (c : Char) : List Char :=
  ['\\', 'x', Nat.digitChar (c.toNat / 16 % 16), Nat.digitChar (c.toNat % 16)]

/-- A character, spelled out if it is a command: in ASCII by two digits, else by its code point. -/
def spell (c : Char) : List Char :=
  if isCommand c then if c.toNat < 0x80 then twoDigits c else codePoint c else [c]

/-- A text with its commands spelled out. -/
def disarm (text : List Char) : List Char := text.flatMap spell

theorem disarm_eq_self {text : List Char} (h : ∀ c ∈ text, isCommand c = false) :
    disarm text = text := by
  induction text with
  | nil => rfl
  | cons c text ih =>
    have hc : isCommand c = false := h c List.mem_cons_self
    have ht : disarm text = text := ih fun d hd => h d (List.mem_cons_of_mem c hd)
    rw [disarm, List.flatMap_cons, ← disarm, ht]
    simp [spell, hc]

theorem isCommand_of_isControl {c : Char} (h : isControl c = false) : isCommand c = false := by
  rw [← Bool.not_eq_true] at h ⊢
  refine mt (fun hc => ?_) h
  simp only [isCommand, Bool.or_eq_true, decide_eq_true_eq, Bool.and_eq_true] at hc
  rcases hc with (((rfl | rfl) | rfl) | rfl) | hc
  · decide
  · decide
  · decide
  · decide
  · simp [isControl, hc]

theorem isCommand_of_mem_disarm {text : List Char} {d : Char} (h : d ∈ disarm text) :
    isCommand d = false := by
  obtain ⟨c, -, hd⟩ := List.mem_flatMap.mp h
  unfold spell at hd
  split at hd
  · split at hd
    · simp only [twoDigits, List.mem_cons, List.not_mem_nil, or_false] at hd
      rcases hd with rfl | rfl | rfl | rfl
      · decide
      · decide
      · exact isCommand_of_isControl (isControl_digitChar _)
      · exact isCommand_of_isControl (isControl_digitChar _)
    · exact isCommand_of_isControl (isControl_of_mem_codePoint hd)
  · next hc =>
    rw [List.mem_singleton.mp hd]
    simpa using hc

end Lox.Text
