import Lox.Proofs.Rounding
import Mathlib.Algebra.Order.Field.Power

/-!
# The nearest number to a quotient

The value of a binary64 number is that of its three fields: the sign, the exponent and the fraction.
A quotient is rounded to the number whose value is nearest, in the sense of the standard: of two that
are equally near to the one with the even significand, from the mean of the last finite number and
the next power of two on to infinity, and up to half of the least number to zero.

## Main definitions

* `Binary64.exponent`, `Binary64.fraction`, `Binary64.value`: the fields of a number and its value
* `Binary64.Rounds q x`: the number to which a quotient is rounded

## Main results

* `Binary64.abs_value`: the magnitude of a value in units
* `Binary64.rounds_ofRatio`: a quotient is rounded to the nearest number
* `Binary64.toNat_bits_ofRatio_le`: rounding is monotone
* `Binary64.ofRatio_eq_abs`: the value of a number is rounded to it
* `Binary64.Rounds.unique`: a quotient is rounded to one number only
-/

namespace Lox.Number.Binary64

/-- The exponent, as it is stored. -/
def exponent (x : Binary64) : ℕ := x.bits.toNat / 2 ^ 52 % 2 ^ 11

/-- The fraction, as it is stored: the significand without its leading bit. -/
def fraction (x : Binary64) : ℕ := x.bits.toNat % 2 ^ 52

/-- The value of a finite number without its sign. Without an exponent it has no leading bit. -/
def unsignedValue (x : Binary64) : ℚ :=
  if x.exponent = 0 then (x.fraction : ℚ) / 2 ^ 52 * 2 ^ (-1022 : ℤ)
  else (1 + (x.fraction : ℚ) / 2 ^ 52) * 2 ^ ((x.exponent : ℤ) - 1023)

/-- **The value of a finite number.** -/
def value (x : Binary64) : ℚ := if x.isNegative then -x.unsignedValue else x.unsignedValue

/-- **A number to which a quotient is rounded.** It is no NaN and has no sign. Below the mean of the
last finite number and the next power of two it is finite and no finite number is nearer; if another
one is as near, its significand is even. -/
structure Rounds (q : ℚ) (x : Binary64) : Prop where
  isNaN : x.isNaN = false
  isNegative : x.isNegative = false
  nearest : q < 2 ^ 1024 - 2 ^ 970 → x.isFinite = true ∧
    ∀ y : Binary64, y.isFinite = true → |x.value - q| ≤ |y.value - q|
  even : q < 2 ^ 1024 - 2 ^ 970 → ∀ y : Binary64, y.isFinite = true → y.value ≠ x.value →
    |y.value - q| = |x.value - q| → x.fraction % 2 = 0
  infinity : 2 ^ 1024 - 2 ^ 970 ≤ q → x.bits = 0x7ff0000000000000
  zero : q ≤ 2 ^ (-1075 : ℤ) → x.bits = 0

/-! ## Values and units -/

theorem cast_shiftLeft (n k : ℕ) : ((n <<< k : ℕ) : ℚ) = n * 2 ^ k := by
  rw [Nat.shiftLeft_eq]
  push_cast
  rfl

theorem cast_one_units : (one : ℚ) = 2 ^ 1074 := by
  rw [one, cast_shiftLeft, Nat.cast_one, one_mul]

theorem cast_one_pos : (0 : ℚ) < one := by
  rw [cast_one_units]
  positivity

theorem magnitude_div (x : Binary64) : x.magnitude / leadingBit = x.exponent := by
  simp only [magnitude, exponent, signBit, leadingBit]
  omega

theorem magnitude_mod (x : Binary64) : x.magnitude % leadingBit = x.fraction := by
  simp only [magnitude, fraction, signBit, leadingBit]
  omega

theorem toNat_bits_abs (x : Binary64) : x.abs.bits.toNat = x.magnitude := by
  rw [abs, UInt64.toNat_ofNat']
  exact Nat.mod_eq_of_lt (x.magnitude_lt.trans (by decide))

/-- Every magnitude is that of a number without a sign. -/
theorem exists_magnitude {m : ℕ} (h : m < signBit) :
    ∃ x : Binary64, x.magnitude = m ∧ x.isNegative = false := by
  have hbits : (UInt64.ofNat m).toNat = m := by
    rw [UInt64.toNat_ofNat']
    exact Nat.mod_eq_of_lt (h.trans (by decide))
  refine ⟨⟨UInt64.ofNat m⟩, ?_, decide_eq_false ?_⟩
  · rw [magnitude, hbits, Nat.mod_eq_of_lt h]
  · rw [hbits]
    exact Nat.not_le_of_lt h

theorem fraction_mod_two (x : Binary64) : x.fraction % 2 = x.magnitude % 2 := by
  rw [← magnitude_mod, leadingBit]
  omega

/-- The least exponent in units. -/
theorem two_zpow_mul_one : (2 : ℚ) ^ (-1022 : ℤ) * 2 ^ 1074 = 2 ^ 52 := by
  rw [← zpow_natCast, ← zpow_natCast, ← zpow_add₀ two_ne_zero]
  norm_num

/-- **The units of a number** are its value without the sign, counted in units. -/
theorem units_eq_unsignedValue (x : Binary64) : (x.units : ℚ) = x.unsignedValue * one := by
  rw [units, unsignedValue, magnitude_div, magnitude_mod, cast_one_units]
  split
  · rw [mul_assoc, two_zpow_mul_one, div_mul_cancel₀ _ (by positivity)]
  · next h =>
    obtain ⟨e, he⟩ := Nat.exists_eq_succ_of_ne_zero h
    have hexp : (2 : ℚ) ^ (((e + 1 : ℕ) : ℤ) - 1023) = 2 ^ e * 2 ^ (-1022 : ℤ) := by
      rw [← zpow_natCast, ← zpow_add₀ two_ne_zero]
      congr 1
      push_cast
      ring
    rw [he, hexp, cast_shiftLeft, Nat.succ_sub_one, Nat.cast_add, cast_leadingBit, mul_assoc,
      mul_assoc, two_zpow_mul_one]
    field_simp

theorem unsignedValue_nonneg (x : Binary64) : 0 ≤ x.unsignedValue := by
  unfold unsignedValue
  split <;> positivity

theorem abs_value (x : Binary64) : |x.value| = x.unsignedValue := by
  unfold value
  split
  · rw [abs_neg, abs_of_nonneg x.unsignedValue_nonneg]
  · exact abs_of_nonneg x.unsignedValue_nonneg

theorem value_of_not_isNegative {x : Binary64} (h : x.isNegative = false) :
    x.value = x.unsignedValue := by
  simp [value, h]

/-! ## Distances in units -/

section

variable {q : ℚ} (x : Binary64)

theorem abs_unsignedValue_sub : |(x.units : ℚ) - q * one| = |x.unsignedValue - q| * one := by
  rw [units_eq_unsignedValue, ← sub_mul, abs_mul, Nat.abs_cast]

/-- Without the sign a number is at least as near to a quotient that has none. -/
theorem abs_unsignedValue_sub_le (hq : 0 ≤ q) : |x.unsignedValue - q| ≤ |x.value - q| := by
  have hx := x.unsignedValue_nonneg
  unfold value
  split
  · rw [← neg_add', abs_neg, abs_of_nonneg (add_nonneg hx hq), abs_le]
    constructor <;> linarith
  · exact le_rfl

/-- If a quotient is as far from two numbers that differ in the sign only, it is zero. -/
theorem eq_zero_of_abs_sub_eq {x y : Binary64} (hq : 0 ≤ q)
    (hy : y.unsignedValue = x.unsignedValue) (hx : x.value = x.unsignedValue)
    (hne : y.value ≠ x.value) (heq : |y.value - q| = |x.value - q|) : q = 0 := by
  have hnonneg := x.unsignedValue_nonneg
  rw [value, hy, hx] at hne heq
  split at hne
  · next hsign =>
    rw [if_pos hsign, abs_of_nonpos (by linarith)] at heq
    rcases abs_choice (x.unsignedValue - q) with h | h
    · linarith
    · exact absurd (by linarith) hne
  · exact absurd rfl hne

end

/-! ## Rounding -/

section

variable (num : ℕ) {den : ℕ}

theorem quotient_nonneg (num den : ℕ) : (0 : ℚ) ≤ num / den :=
  div_nonneg (Nat.cast_nonneg _) (Nat.cast_nonneg _)

/-- The bits of a rounded quotient are those of its scale and significand, or of infinity. -/
theorem toNat_bits_ofRatio (num den : ℕ) : (ofRatio num den).bits.toNat =
    min (scaleOf num den * leadingBit + significandOf num den) infinityBits := by
  have hlt : min (scaleOf num den * leadingBit + significandOf num den) infinityBits < 2 ^ 64 :=
    (Nat.min_le_right _ _).trans_lt (by decide)
  exact (UInt64.toNat_ofNat' (n := _)).trans (Nat.mod_eq_of_lt hlt)

theorem toNat_bits_ofRatio_lt (num den : ℕ) : (ofRatio num den).bits.toNat < signBit := by
  rw [toNat_bits_ofRatio]
  exact (Nat.min_le_right _ _).trans_lt (by decide)

theorem magnitude_ofRatio (num den : ℕ) : (ofRatio num den).magnitude =
    min (scaleOf num den * leadingBit + significandOf num den) infinityBits := by
  rw [magnitude, Nat.mod_eq_of_lt (toNat_bits_ofRatio_lt num den), toNat_bits_ofRatio]

theorem isNegative_ofRatio (num den : ℕ) : (ofRatio num den).isNegative = false :=
  decide_eq_false (Nat.not_le_of_lt (toNat_bits_ofRatio_lt num den))

/-- The mean of the last finite number and the next power of two, in units. -/
theorem limit_mul_one :
    ((2 : ℚ) ^ 1024 - 2 ^ 970) * one = (2 ^ 53 - 1 / 2) * 2 ^ 2045 := by
  have hlarge : (2 : ℚ) ^ 1024 = 2 ^ 54 * 2 ^ 970 := pow_add 2 54 970
  have hunits : (2 : ℚ) ^ 2045 = 2 * (2 ^ 970 * 2 ^ 1074) := by
    rw [← pow_add, ← pow_succ']
  rw [cast_one_units, hlarge, hunits]
  generalize (2 : ℚ) ^ 970 = least
  generalize (2 : ℚ) ^ 1074 = units
  ring

theorem half_least_mul_one : (2 : ℚ) ^ (-1075 : ℤ) * one = 1 / 2 := by
  rw [cast_one_units, ← zpow_natCast, ← zpow_add₀ two_ne_zero]
  norm_num

section

variable {num} (h : 0 < den)
include h

/-- A quotient is rounded on its grid, in units. -/
theorem fitting_mul_one :
    Fitting ((num : ℚ) / den * one) (scaleOf num den) (significandOf num den) := by
  have grid := fitting_significandOf num h
  have hunits : ((num * one : ℕ) : ℚ) / den = num / den * one := by
    push_cast
    ring
  rwa [hunits] at grid

/-- The limit of the finite numbers is that of the grid. -/
theorem infinityBits_le_iff : infinityBits ≤ scaleOf num den * leadingBit + significandOf num den ↔
    2 ^ 1024 - 2 ^ 970 ≤ (num : ℚ) / den := by
  rw [← mul_le_mul_iff_of_pos_right cast_one_pos, limit_mul_one,
    ← (fitting_mul_one h).mul_leadingBit_le_iff]
  rfl

theorem lt_infinityBits_of_lt (hlt : (num : ℚ) / den < 2 ^ 1024 - 2 ^ 970) :
    scaleOf num den * leadingBit + significandOf num den < infinityBits :=
  Nat.lt_of_not_le (mt (infinityBits_le_iff h).mp hlt.not_ge)

theorem magnitude_ofRatio_of_lt (hlt : (num : ℚ) / den < 2 ^ 1024 - 2 ^ 970) :
    (ofRatio num den).magnitude = scaleOf num den * leadingBit + significandOf num den := by
  rw [magnitude_ofRatio, Nat.min_eq_left (lt_infinityBits_of_lt h hlt).le]

/-- **No number is nearer**, whatever its sign is. -/
theorem abs_value_ofRatio_sub_le (hlt : (num : ℚ) / den < 2 ^ 1024 - 2 ^ 970) (y : Binary64) :
    |(ofRatio num den).value - num / den| ≤ |y.unsignedValue - num / den| := by
  rw [value_of_not_isNegative (isNegative_ofRatio num den),
    ← mul_le_mul_iff_of_pos_right cast_one_pos, ← abs_unsignedValue_sub, ← abs_unsignedValue_sub,
    units_eq, units_eq, magnitude_ofRatio_of_lt h hlt]
  exact (fitting_mul_one h).abs_sub_le _

/-- **Of two numbers that are equally near the even one is taken.** -/
theorem fraction_ofRatio_even (hlt : (num : ℚ) / den < 2 ^ 1024 - 2 ^ 970) {y : Binary64}
    (hne : y.value ≠ (ofRatio num den).value)
    (heq : |y.value - num / den| = |(ofRatio num den).value - num / den|) :
    (ofRatio num den).fraction % 2 = 0 := by
  have grid : Fitting ((num : ℚ) / den * one) _ _ := fitting_mul_one h
  have hq := quotient_nonneg num den
  have hx := value_of_not_isNegative (isNegative_ofRatio num den)
  rw [fraction_mod_two, magnitude_ofRatio_of_lt h hlt]
  by_cases hu : y.units = (ofRatio num den).units
  · -- the two values differ in the sign, and zero alone is as far from both
    have hy : y.unsignedValue = (ofRatio num den).unsignedValue := by
      apply mul_right_cancel₀ cast_one_pos.ne'
      rw [← units_eq_unsignedValue, hu, units_eq_unsignedValue]
    have hzero : (num : ℚ) / den = 0 := eq_zero_of_abs_sub_eq hq hy hx hne heq
    rw [hzero, zero_mul] at grid
    rw [grid.eq_zero_of_le_half le_rfl one_half_pos.le]
  · have hdist : |y.unsignedValue - (num : ℚ) / den| =
        |(ofRatio num den).unsignedValue - (num : ℚ) / den| :=
      ((y.abs_unsignedValue_sub_le hq).trans (heq.trans (by rw [hx])).le).antisymm
        (hx ▸ abs_value_ofRatio_sub_le h hlt y)
    refine grid.even_of_abs_sub_eq (m := y.magnitude) ?_ ?_
    · rwa [← magnitude_ofRatio_of_lt h hlt, ← units_eq, ← units_eq]
    · rw [← magnitude_ofRatio_of_lt h hlt, ← units_eq, ← units_eq, abs_unsignedValue_sub,
        abs_unsignedValue_sub, hdist]

/-- Up to half of the least number a quotient is rounded to zero. -/
theorem eq_zero_of_le_half_least (hle : (num : ℚ) / den ≤ 2 ^ (-1075 : ℤ)) :
    scaleOf num den * leadingBit + significandOf num den = 0 := by
  have hone := cast_one_pos
  have hq := quotient_nonneg num den
  have hhalf : (num : ℚ) / den * one ≤ 1 / 2 := by
    rw [← half_least_mul_one]
    exact mul_le_mul_of_nonneg_right hle hone.le
  exact (fitting_mul_one h).eq_zero_of_le_half (mul_nonneg hq hone.le) hhalf

end

/-- **A quotient is rounded to the nearest number.** -/
theorem rounds_ofRatio (h : 0 < den) : Rounds ((num : ℚ) / den) (ofRatio num den) where
  isNaN := by
    rw [isNaN, magnitude_ofRatio]
    exact decide_eq_false (Nat.not_lt_of_le (Nat.min_le_right _ _))
  isNegative := isNegative_ofRatio num den
  nearest hlt := by
    have hq := quotient_nonneg num den
    refine ⟨?_, fun y _ => (abs_value_ofRatio_sub_le h hlt y).trans (y.abs_unsignedValue_sub_le hq)⟩
    rw [isFinite, magnitude_ofRatio_of_lt h hlt]
    exact decide_eq_true (lt_infinityBits_of_lt h hlt)
  even hlt _ _ hne heq := fraction_ofRatio_even h hlt hne heq
  infinity hle := by
    apply UInt64.toNat_inj.mp
    rw [toNat_bits_ofRatio, Nat.min_eq_right ((infinityBits_le_iff h).mpr hle)]
    rfl
  zero hle := by
    apply UInt64.toNat_inj.mp
    rw [toNat_bits_ofRatio, eq_zero_of_le_half_least h hle]
    rfl

/-- **Rounding is monotone.** -/
theorem toNat_bits_ofRatio_le {num den num' den' : ℕ} (h : 0 < den) (h' : 0 < den')
    (hle : num * den' ≤ num' * den) :
    (ofRatio num den).bits.toNat ≤ (ofRatio num' den').bits.toNat := by
  have hunits : ((num * one : ℕ) : ℚ) / den ≤ (num' * one : ℕ) / den' := by
    rw [div_le_div_iff₀ (by exact_mod_cast h) (by exact_mod_cast h')]
    have hmul := Nat.mul_le_mul_right one hle
    rw [Nat.mul_right_comm, Nat.mul_right_comm num'] at hmul
    exact_mod_cast hmul
  have hmono := (fitting_significandOf num h).mono (fitting_significandOf num' h') hunits
  rw [toNat_bits_ofRatio, toNat_bits_ofRatio]
  exact min_le_min_right _ hmono

/-- **The value of a number is rounded to the number.** -/
theorem ofRatio_eq_abs (h : 0 < den) {x : Binary64} (hx : x.isFinite = true)
    (heq : num * one = x.units * den) : ofRatio num den = x.abs := by
  have hden : (den : ℚ) ≠ 0 := by exact_mod_cast h.ne'
  have grid := fitting_significandOf num h
  rw [heq, Nat.cast_mul, mul_div_cancel_right₀ _ hden] at grid
  obtain ⟨scale, n, hm, hfit⟩ := exists_fitting_unitsAt x.magnitude
  have hbits := toNat_bits_ofRatio num den
  rw [grid.unique hfit, hm, Nat.min_eq_left (of_decide_eq_true hx).le] at hbits
  have habs : x.abs.bits.toNat = x.magnitude := toNat_bits_abs x
  rw [← habs] at hbits
  exact congrArg Binary64.mk (UInt64.toNat_inj.mp hbits)

end

/-! ## One number for a quotient -/

section

variable {q : ℚ} {x y : Binary64}

theorem eq_of_magnitude_eq (hx : x.isNegative = false) (hy : y.isNegative = false)
    (h : x.magnitude = y.magnitude) : x = y := by
  have hbits {z : Binary64} (hz : z.isNegative = false) : z.bits.toNat = z.magnitude :=
    (Nat.mod_eq_of_lt (Nat.lt_of_not_le (of_decide_eq_false hz))).symm
  apply congrArg Binary64.mk
  apply UInt64.toNat_inj.mp
  rw [hbits hx, hbits hy, h]

theorem unsignedValue_lt (h : x.magnitude < y.magnitude) : x.unsignedValue < y.unsignedValue := by
  rw [← mul_lt_mul_iff_of_pos_right cast_one_pos, ← units_eq_unsignedValue,
    ← units_eq_unsignedValue]
  exact_mod_cast strictMono_unitsAt h

/-- Of two points that are equally far from a third one, neither is as near as one between them. -/
theorem abs_sub_lt_of_between {a b c : ℚ} (hab : a < b) (hbc : b < c)
    (heq : |a - q| = |c - q|) : |b - q| < |a - q| := by
  rcases abs_eq_abs.mp heq with h | h
  · linarith
  · rw [abs_of_neg (show a - q < 0 by linarith), abs_lt]
    constructor <;> linarith

namespace Rounds

/-- Two magnitudes that are equally near are both even, and the next one would be nearer. -/
theorem magnitude_le (hx : Rounds q x) (hy : Rounds q y) (hq : q < 2 ^ 1024 - 2 ^ 970) :
    y.magnitude ≤ x.magnitude := by
  by_contra! hlt
  obtain ⟨hxfin, hxnear⟩ := hx.nearest hq
  obtain ⟨hyfin, hynear⟩ := hy.nearest hq
  have heq : |x.value - q| = |y.value - q| := (hxnear y hyfin).antisymm (hynear x hxfin)
  have hvalue := unsignedValue_lt hlt
  rw [← value_of_not_isNegative hx.isNegative, ← value_of_not_isNegative hy.isNegative] at hvalue
  have hxeven := hx.even hq y hyfin hvalue.ne' heq.symm
  have hyeven := hy.even hq x hxfin hvalue.ne heq
  rw [fraction_mod_two] at hxeven hyeven
  -- the number behind `x` is before `y`, by the parity of the two
  have hbound : y.magnitude < infinityBits := of_decide_eq_true hyfin
  have hz : x.magnitude + 1 < signBit := by
    simp only [infinityBits, signBit] at *
    omega
  obtain ⟨z, hzmag, hzsign⟩ := exists_magnitude hz
  have hzfin : z.isFinite = true := decide_eq_true (by omega)
  have hxz := unsignedValue_lt (x := x) (y := z) (by omega)
  have hzy := unsignedValue_lt (x := z) (y := y) (by omega)
  rw [← value_of_not_isNegative hx.isNegative, ← value_of_not_isNegative hzsign] at hxz
  rw [← value_of_not_isNegative hzsign, ← value_of_not_isNegative hy.isNegative] at hzy
  exact absurd (hxnear z hzfin) (abs_sub_lt_of_between hxz hzy heq).not_ge

/-- **A quotient is rounded to one number only.** -/
theorem unique (hx : Rounds q x) (hy : Rounds q y) : x = y := by
  rcases lt_or_ge q (2 ^ 1024 - 2 ^ 970) with hlt | hge
  · exact eq_of_magnitude_eq hx.isNegative hy.isNegative
      ((hy.magnitude_le hx hlt).antisymm (hx.magnitude_le hy hlt))
  · exact congrArg Binary64.mk ((hx.infinity hge).trans (hy.infinity hge).symm)

end Rounds

end

end Lox.Number.Binary64
