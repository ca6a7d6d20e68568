/-!
# Binary floating-point numbers

The binary64 numbers of IEEE 754, as bit patterns. Every finite one is a whole number of units of
`2 ^ -1074`, the least positive one, so that comparisons and roundings are made on natural numbers.

## Main definitions

* `Binary64`: a number, by its bits
* `Binary64.units`: the magnitude of a finite number, in units of `2 ^ -1074`
* `Binary64.equal`: numerical equality
* `roundEven`: the nearest whole number to a quotient
* `Binary64.ofRatio`: the nearest number to a quotient
-/

namespace Lox.Number

/-- A binary64 number: one bit of sign, eleven of exponent and 52 of fraction. -/
structure Binary64 where
  bits : UInt64
  deriving DecidableEq

/-- The whole number nearest to `num / den`, the even one of two that are equally near. -/
def roundEven (num den : Nat) : Nat :=
  if 2 * (num % den) < den ∨ 2 * (num % den) = den ∧ num / den % 2 = 0 then num / den
  else num / den + 1

namespace Binary64

/-- The number of units in one, `2 ^ 1074`. -/
def one : Nat := 1 <<< 1074

/-- The sign bit, `2 ^ 63`. -/
def signBit : Nat := 0x8000000000000000

/-- The lowest bit of the exponent, `2 ^ 52`: the leading bit of a significand of full length. -/
def leadingBit : Nat := 0x10000000000000

/-- The bits of the exponent and the fraction of the infinities: every exponent bit set. -/
def infinityBits : Nat := 0x7ff0000000000000

/-- The bits of the exponent and the fraction. -/
def magnitude (x : Binary64) : Nat := x.bits.toNat % signBit

/-- Whether the sign bit is set. -/
def isNegative (x : Binary64) : Bool := signBit ≤ x.bits.toNat

/-- Whether the number is neither an infinity nor a NaN. -/
def isFinite (x : Binary64) : Bool := x.magnitude < infinityBits

/-- Whether it is no number at all. -/
def isNaN (x : Binary64) : Bool := infinityBits < x.magnitude

/-- The number with the sign bit cleared. -/
def abs (x : Binary64) : Binary64 := ⟨UInt64.ofNat x.magnitude⟩

/-- The magnitude of a finite number, in units. Exponents 0 and 1 have the unit's scale; numbers of
exponent 0 lack the leading bit. -/
def units (x : Binary64) : Nat :=
  let exponent := x.magnitude / leadingBit
  let fraction := x.magnitude % leadingBit
  if exponent = 0 then fraction else (leadingBit + fraction) <<< (exponent - 1)

/-- Whether a finite number is an integer. -/
def isWhole (x : Binary64) : Bool := x.units % one = 0

/-- Numerical equality: a NaN equals nothing, and the two zeros are equal. -/
def equal (x y : Binary64) : Bool :=
  !x.isNaN && !y.isNaN && (x.bits = y.bits || (x.magnitude = 0 && y.magnitude = 0))

/-- **The nearest number** to `num / den`, the one of even significand of two that are equally
near, and infinity beyond the finite numbers. The scale is the least at which the quotient has at
most 53 bits, and the rounded significand added to the exponent's bits carries into them. -/
def ofRatio (num den : Nat) : Binary64 :=
  let scale := (num * one / den).log2 - 52
  let significand := roundEven (num * one) (den <<< scale)
  ⟨UInt64.ofNat (min (scale * leadingBit + significand) infinityBits)⟩

theorem magnitude_lt (x : Binary64) : x.magnitude < signBit :=
  Nat.mod_lt _ (by decide)

end Binary64

end Lox.Number
