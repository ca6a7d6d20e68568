import Lox.Number.Binary64

/-!
# Decimal numbers

A decimal number is a whole number of tenths, hundredths and so on. It is written with a point and
all its places, and read from digits that may be followed by a point and more digits.

## Main definitions

* `Decimal`: a decimal number
* `Decimal.parse?`: a number read from its text
* `Decimal.text`: the text of a number
* `Decimal.toBinary64`: the nearest binary64 number

## Main results

* `isDigit_of_mem_lastDigits`, `length_lastDigits`: the places are digits, one each
-/

namespace Lox.Number

/-- The number `digits / 10 ^ places`. -/
structure Decimal where
  digits : Nat
  places : Nat
  deriving DecidableEq

namespace Decimal

/-- The nearest binary64 number. -/
def toBinary64 (d : Decimal) : Binary64 := Binary64.ofRatio d.digits (Nat.pow 10 d.places)

/-- Digits, alone or followed by a point and more digits. -/
def parse? (text : List Char) : Option Decimal :=
  match text.takeWhile Char.isDigit, text.dropWhile Char.isDigit with
  | [], _ => none
  | whole, [] => some ⟨Nat.ofDigitChars 10 whole 0, 0⟩
  | _, ['.'] => none
  | whole, '.' :: fraction =>
    if fraction.all Char.isDigit then
      some ⟨Nat.ofDigitChars 10 (whole ++ fraction) 0, fraction.length⟩
    else none
  | _, _ => none

/-- The last `places` digits of a number, leading zeros included. -/
def lastDigits : (places : Nat) → (n : Nat) → List Char
  | 0, _ => []
  | places + 1, n => lastDigits places (n / 10) ++ [Nat.digitChar (n % 10)]

@[simp] theorem length_lastDigits (places n : Nat) : (lastDigits places n).length = places := by
  induction places generalizing n with
  | zero => rfl
  | succ places ih => simp [lastDigits, ih]

theorem isDigit_of_mem_lastDigits {places n : Nat} {c : Char} (h : c ∈ lastDigits places n) :
    c.isDigit = true := by
  induction places generalizing n with
  | zero => simp [lastDigits] at h
  | succ places ih =>
    rcases List.mem_append.mp h with h | h
    · exact ih h
    · have : n % 10 < 10 := Nat.mod_lt n (by decide)
      rw [List.mem_singleton.mp h]
      exact Nat.isDigit_of_mem_toDigits (b := 10) (n := n % 10) (by decide) (by decide)
        (by simp [Nat.toDigits_of_lt_base this])

/-- The whole part, the point and every place. -/
def text (d : Decimal) : List Char :=
  Nat.toDigits 10 (d.digits / Nat.pow 10 d.places) ++ '.' :: lastDigits d.places d.digits

end Decimal

end Lox.Number
