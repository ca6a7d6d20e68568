/-!
# Sets of characters given by ranges

A set of characters is written as the list of its inclusive ranges of code points.

## Main definitions

* `Ranges`: a list of inclusive ranges
* `Ranges.has`: membership of a character
-/

namespace Lox.Text

/-- Inclusive ranges of code points, first and last. -/
abbrev Ranges := List (Nat × Nat)

/-- Membership of a character in one of the ranges. -/
def Ranges.has (ranges : Ranges) (c : Char) : Bool :=
  ranges.any fun range => range.1 ≤ c.toNat && c.toNat ≤ range.2

theorem Ranges.has_iff {ranges : Ranges} {c : Char} :
    ranges.has c = true ↔ ∃ range ∈ ranges, range.1 ≤ c.toNat ∧ c.toNat ≤ range.2 := by
  simp [Ranges.has]

end Lox.Text
