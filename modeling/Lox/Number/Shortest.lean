import Lox.Number.Decimal

/-!
# The shortest decimal of a binary number

A binary64 number is shown with the fewest places from which it can be read back, and at least one.
Among the decimals with these places the nearest is taken, and of two that are equally near the
larger. No exponent is ever written.

## Main definitions

* `Binary64.neighbours x places`: the two decimals around a magnitude, the nearer first
* `Binary64.shortest`: the shortest decimal of a magnitude
* `Binary64.text`: the text of a number

## Main results

* `toBinary64_of_readBack?`: a decimal that is chosen reads back
-/

namespace Lox.Number

namespace Binary64

/-- The decimal that equals a magnitude: a unit has 1074 places. -/
def exact (x : Binary64) : Decimal := ⟨x.units * Nat.pow 5 1074, 1074⟩

/-- The decimals below and above a magnitude, the nearer one first, and the upper one of two that
are equally near. -/
def neighbours (x : Binary64) (places : Nat) : List Decimal :=
  let below := x.units * Nat.pow 10 places / one
  let rest := x.units * Nat.pow 10 places % one
  if 2 * rest < one then [⟨below, places⟩, ⟨below + 1, places⟩]
  else [⟨below + 1, places⟩, ⟨below, places⟩]

/-- A decimal with so many places that reads back as the magnitude. -/
def readBack? (x : Binary64) (places : Nat) : Option Decimal :=
  (x.neighbours places).find? fun d => d.toBinary64 = x.abs

theorem toBinary64_of_readBack? {x : Binary64} {places : Nat} {d : Decimal}
    (h : x.readBack? places = some d) : d.toBinary64 = x.abs := by
  simpa using List.find?_some h

/-- **The shortest decimal** of a finite magnitude: an integer with one place, any other number with
the fewest places that read back. -/
def shortest (x : Binary64) : Decimal :=
  if x.isWhole then ⟨x.units / one * 10, 1⟩
  else ((List.range' 1 1073).findSome? x.readBack?).getD x.exact

/-- The text of a number. A NaN has no sign. -/
def text (x : Binary64) : List Char :=
  if x.isNaN then ['N', 'a', 'N']
  else (if x.isNegative then ['-'] else []) ++
    if x.isFinite then x.shortest.text else ['i', 'n', 'f']

end Binary64

end Lox.Number
