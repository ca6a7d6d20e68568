import Lox.Text.GraphemeExtend
import Lox.Text.Unassigned
import Lox.Text.Unseen

/-!
# Quoted text

A quoted text stands between two marks and holds only characters that show on their own. The five
characters NUL, TAB, LF, CR and `\` have a short escape, and so has the mark itself; every other
character that would not show is written `\u{N}`, with its code point `N` in hexadecimal.

## Main definitions

* `isShown`: the characters written as they are
* `escape mark c`: a character inside the marks
* `quote mark text`: the whole quoted text

## Main results

* `isControl_of_mem_quote`: no control character is left in a quoted text
-/

namespace Lox.Text

/-- A control character: the general category Cc. -/
def isControl (c : Char) : Bool :=
  c.toNat < 0x20 || (0x7f ≤ c.toNat && c.toNat < 0xa0)

/-- A character that shows on its own: neither a control, a format character, a filler, a separator
other than the space, unassigned, for private use, nor an extension of the character before it. -/
def isShown (c : Char) : Bool :=
  !(isControl c || unseen.has c || fillers.has c || isExtending c || unassigned.has c)

/-- A character by its code point, in lower-case hexadecimal without leading zeros. -/
def codePoint (c : Char) : List Char :=
  '\\' :: 'u' :: '\x7b' :: Nat.toDigits 16 c.toNat ++ ['\x7d']

/-- A character as it stands between two marks. -/
def escape (mark c : Char) : List Char :=
  match c with
  | '\x00' => ['\\', '0']
  | '\t' => ['\\', 't']
  | '\n' => ['\\', 'n']
  | '\r' => ['\\', 'r']
  | '\\' => ['\\', '\\']
  | c => if c = mark then ['\\', c] else if isShown c then [c] else codePoint c

/-- A text between two marks. -/
def quote (mark : Char) (text : List Char) : List Char :=
  mark :: text.flatMap (escape mark) ++ [mark]

/-- A character between single quotation marks. -/
def quoteChar (c : Char) : String :=
  String.ofList (quote '\x27' [c])

/-- A text between double quotation marks. -/
def quoteText (text : String) : String :=
  String.ofList (quote '"' text.toList)

/-! ## No control character is left -/

theorem isControl_digitChar (n : Nat) : isControl (Nat.digitChar n) = false := by
  match n with
  | 0 | 1 | 2 | 3 | 4 | 5 | 6 | 7 | 8 | 9 | 10 | 11 | 12 | 13 | 14 | 15 => decide
  | n + 16 => rfl

theorem isControl_of_mem_toDigits {base n : Nat} (hb : 1 < base) {d : Char}
    (h : d ∈ Nat.toDigits base n) : isControl d = false := by
  induction n using Nat.strongRecOn with
  | ind n ih =>
    by_cases small : n < base
    · rw [Nat.toDigits_of_lt_base small, List.mem_singleton] at h
      exact h ▸ isControl_digitChar n
    · rw [Nat.toDigits_of_base_le hb (Nat.le_of_not_lt small)] at h
      rcases List.mem_append.mp h with h | h
      · exact ih (n / base) (Nat.div_lt_self (by omega) hb) h
      · exact List.mem_singleton.mp h ▸ isControl_digitChar (n % base)

theorem isControl_of_mem_codePoint {c d : Char} (h : d ∈ codePoint c) : isControl d = false := by
  simp only [codePoint, List.cons_append, List.mem_cons, List.mem_append, List.not_mem_nil,
    or_false] at h
  rcases h with rfl | rfl | rfl | h | rfl
  · decide
  · decide
  · decide
  · exact isControl_of_mem_toDigits (by decide) h
  · decide

theorem isControl_of_isShown {c : Char} (h : isShown c = true) : isControl c = false := by
  simp only [isShown, Bool.not_eq_true', Bool.or_eq_false_iff] at h
  exact h.1.1.1.1

section

variable {mark d : Char} (hmark : isControl mark = false)

include hmark

theorem isControl_of_mem_escape {c : Char} (h : d ∈ escape mark c) : isControl d = false := by
  have short : ∀ letter : Char, isControl letter = false → d ∈ ['\\', letter] →
      isControl d = false := by
    intro letter hl hd
    rw [List.mem_cons, List.mem_singleton] at hd
    rcases hd with rfl | rfl
    · decide
    · exact hl
  unfold escape at h
  split at h
  · exact short _ (by decide) h
  · exact short _ (by decide) h
  · exact short _ (by decide) h
  · exact short _ (by decide) h
  · exact short _ (by decide) h
  · split at h
    · next hc => exact short _ (hc ▸ hmark) h
    · split at h
      · next hc => exact List.mem_singleton.mp h ▸ isControl_of_isShown hc
      · exact isControl_of_mem_codePoint h

/-- **No control character is left in a quoted text.** -/
theorem isControl_of_mem_quote {text : List Char} (h : d ∈ quote mark text) :
    isControl d = false := by
  rw [quote, List.cons_append, List.mem_cons, List.mem_append, List.mem_singleton,
    List.mem_flatMap] at h
  rcases h with rfl | ⟨c, -, h⟩ | rfl
  · exact hmark
  · exact isControl_of_mem_escape hmark h
  · exact hmark

end

end Lox.Text
