import Lox.Number.Binary64
import Mathlib.Algebra.Order.Field.Rat
import Mathlib.Data.Nat.Cast.Order.Field
import Mathlib.Tactic.FieldSimp
import Mathlib.Tactic.Linarith
import Mathlib.Tactic.NormNum
import Mathlib.Tactic.Positivity
import Mathlib.Tactic.Ring

/-!
# Rounding on a grid

A quotient of units is rounded on a grid: the scale is chosen so that the quotient has 53 bits before
the point, and the nearest point of the grid is taken. The numbers of at least 53 bits are points of
the same grid and the others are further away, so that no number at all is nearer. Everything that
holds of the rounding is read off the four facts of `Fitting`.

## Main definitions

* `Binary64.unitsAt`: the units of a magnitude
* `Binary64.Fitting q scale n`: the nearest point of the grid of a quotient

## Main results

* `roundEven_spec`: rounding to a whole number
* `Binary64.strictMono_unitsAt`: a larger magnitude has more units
* `Binary64.fitting_significandOf`: a quotient is rounded on its grid
* `Binary64.Fitting.abs_sub_le`, `Binary64.Fitting.even_of_abs_sub_eq`: no number is nearer, and of
  two the even one is taken
* `Binary64.Fitting.mul_leadingBit_le_iff`: what is rounded to a power of two or beyond it
* `Binary64.Fitting.mono`: rounding is monotone
-/

namespace Lox.Number

/-! ## Points of a grid -/

section Grid

variable {q : ℚ} {n k : ℕ}

/-- If a point is within half a step, every other one is at least half a step away. -/
theorem half_le_abs_sub (h : |(n : ℚ) - q| ≤ 1 / 2) (hk : k ≠ n) : 1 / 2 ≤ |(k : ℚ) - q| := by
  obtain ⟨below, above⟩ := abs_le.mp h
  rw [le_abs]
  rcases Nat.lt_or_gt_of_ne hk with hlt | hgt
  · have step : (k : ℚ) + 1 ≤ n := by exact_mod_cast hlt
    right
    linarith
  · have step : (n : ℚ) + 1 ≤ k := by exact_mod_cast hgt
    left
    linarith

/-- A point within half a step is a nearest one. -/
theorem abs_sub_le_of_le_half (h : |(n : ℚ) - q| ≤ 1 / 2) (k : ℕ) :
    |(n : ℚ) - q| ≤ |(k : ℚ) - q| := by
  by_cases hk : k = n
  · rw [hk]
  · exact h.trans (half_le_abs_sub h hk)

/-- If another point is as near, both are half a step away. -/
theorem abs_sub_eq_half (h : |(n : ℚ) - q| ≤ 1 / 2) (hk : k ≠ n)
    (heq : |(k : ℚ) - q| = |(n : ℚ) - q|) : |(n : ℚ) - q| = 1 / 2 :=
  h.antisymm (heq ▸ half_le_abs_sub h hk)

end Grid

/-! ## Rounding to whole numbers -/

section

variable (num : ℕ) {den : ℕ}

/-- A quotient is its whole part and the rest. -/
theorem div_eq_add_mod_div (h : 0 < den) :
    (num : ℚ) / den = (num / den : ℕ) + (num % den : ℕ) / (den : ℚ) := by
  have hden : (den : ℚ) ≠ 0 := by exact_mod_cast h.ne'
  have hnum : (num : ℚ) = den * (num / den : ℕ) + (num % den : ℕ) := by
    exact_mod_cast (Nat.div_add_mod num den).symm
  field_simp
  exact hnum

/-- **The rounding of a quotient is within half a step, and even if it is half a step away.** -/
theorem roundEven_spec (h : 0 < den) : |(roundEven num den : ℚ) - num / den| ≤ 1 / 2 ∧
    (|(roundEven num den : ℚ) - num / den| = 1 / 2 → roundEven num den % 2 = 0) := by
  have hden : (0 : ℚ) < den := by exact_mod_cast h
  have hlt : ((num % den : ℕ) : ℚ) / den < 1 := by
    rw [div_lt_one hden]
    exact_mod_cast Nat.mod_lt num h
  have hle : ((num % den : ℕ) : ℚ) / den ≤ 1 / 2 ↔ 2 * (num % den) ≤ den := by
    rw [div_le_div_iff₀ hden two_pos, one_mul, mul_comm]
    exact_mod_cast Iff.rfl
  have hge : 1 / 2 ≤ ((num % den : ℕ) : ℚ) / den ↔ den ≤ 2 * (num % den) := by
    rw [div_le_div_iff₀ two_pos hden, one_mul, mul_comm]
    exact_mod_cast Iff.rfl
  have hnonneg : 0 ≤ ((num % den : ℕ) : ℚ) / den := by positivity
  rw [div_eq_add_mod_div num h]
  generalize ((num % den : ℕ) : ℚ) / den = rest at *
  unfold roundEven
  split
  · next hdown =>
    rw [sub_add_cancel_left, abs_neg, abs_of_nonneg hnonneg]
    refine ⟨hle.mpr (by omega), fun heq => ?_⟩
    have := hge.mp heq.ge
    omega
  · next hup =>
    rw [Nat.cast_succ, add_sub_add_left_eq_sub, abs_of_pos (by linarith)]
    have half : 1 / 2 ≤ rest := hge.mpr (by omega)
    refine ⟨by linarith, fun heq => ?_⟩
    have := hle.mp (by linarith)
    omega

end

/-! ## Magnitudes and their units -/

namespace Binary64

/-- The units of a magnitude. -/
def unitsAt (magnitude : ℕ) : ℕ :=
  let exponent := magnitude / leadingBit
  let fraction := magnitude % leadingBit
  if exponent = 0 then fraction else (leadingBit + fraction) <<< (exponent - 1)

theorem units_eq (x : Binary64) : x.units = unitsAt x.magnitude := rfl

theorem unitsAt_of_lt {m : ℕ} (h : m < leadingBit) : unitsAt m = m := by
  rw [unitsAt, Nat.div_eq_of_lt h, Nat.mod_eq_of_lt h]
  exact if_pos rfl

/-- The units of a magnitude with an exponent, to which the leading bit belongs. -/
theorem unitsAt_normal (exponent : ℕ) {fraction : ℕ} (h : fraction < leadingBit) :
    unitsAt ((exponent + 1) * leadingBit + fraction) = (leadingBit + fraction) * 2 ^ exponent := by
  have hdiv : ((exponent + 1) * leadingBit + fraction) / leadingBit = exponent + 1 := by
    simp only [leadingBit] at *
    omega
  have hmod : ((exponent + 1) * leadingBit + fraction) % leadingBit = fraction := by
    simp only [leadingBit] at *
    omega
  rw [unitsAt, hdiv, hmod]
  simp [Nat.shiftLeft_eq]

/-- Every magnitude has an exponent or is its own number of units. -/
theorem exists_magnitude_eq (m : ℕ) : m < leadingBit ∨
    ∃ exponent fraction, fraction < leadingBit ∧ m = (exponent + 1) * leadingBit + fraction := by
  rcases Nat.lt_or_ge m leadingBit with h | h
  · exact .inl h
  · refine .inr ⟨m / leadingBit - 1, m % leadingBit, Nat.mod_lt _ (by decide), ?_⟩
    simp only [leadingBit] at *
    omega

/-- **The units of a magnitude that is given by a scale and a significand.** The significand may be
as large as the next scale has it, since the carry goes into the exponent. -/
theorem unitsAt_add {scale n : ℕ} (hfull : scale = 0 ∨ leadingBit ≤ n) (hn : n ≤ 2 * leadingBit) :
    unitsAt (scale * leadingBit + n) = n * 2 ^ scale := by
  rcases Nat.lt_or_ge n leadingBit with hlt | hge
  · obtain rfl : scale = 0 := hfull.resolve_right (by omega)
    rw [Nat.zero_mul, Nat.zero_add, unitsAt_of_lt hlt, Nat.pow_zero, Nat.mul_one]
  obtain ⟨m, rfl⟩ := Nat.exists_eq_add_of_le hge
  rcases Nat.lt_or_ge m leadingBit with hlt | hcarry
  · have h := unitsAt_normal scale hlt
    rwa [Nat.succ_mul, Nat.add_assoc] at h
  · obtain rfl : m = leadingBit := by omega
    have h := unitsAt_normal (scale + 1) (show 0 < leadingBit by decide)
    rw [Nat.add_zero, Nat.add_zero, Nat.succ_mul, Nat.succ_mul, Nat.add_assoc] at h
    rw [h]
    ring

/-- **A larger magnitude has more units.** -/
theorem strictMono_unitsAt : StrictMono unitsAt := by
  refine strictMono_nat_of_lt_succ fun m => ?_
  rcases exists_magnitude_eq m with h | ⟨exponent, fraction, h, rfl⟩
  · have hnext : unitsAt (0 * leadingBit + (m + 1)) = (m + 1) * 2 ^ 0 :=
      unitsAt_add (.inl rfl) (by omega)
    rw [Nat.zero_mul, Nat.zero_add, Nat.pow_zero, Nat.mul_one] at hnext
    rw [hnext, unitsAt_of_lt h]
    exact Nat.lt_succ_self m
  · have hnext : unitsAt (exponent * leadingBit + (leadingBit + (fraction + 1))) =
        (leadingBit + (fraction + 1)) * 2 ^ exponent := unitsAt_add (.inr (by omega)) (by omega)
    rw [unitsAt_normal exponent h, Nat.succ_mul, Nat.add_assoc, Nat.add_assoc, hnext]
    exact Nat.mul_lt_mul_of_pos_right (Nat.lt_succ_self _) (Nat.two_pow_pos exponent)

/-- **The units of every magnitude are a point of the grid of a scale**, or they lack the full
length there. -/
theorem unitsAt_cases (scale m : ℕ) :
    (∃ k, unitsAt m = k * 2 ^ scale) ∨ 0 < scale ∧ unitsAt m < leadingBit * 2 ^ scale := by
  rcases exists_magnitude_eq m with h | ⟨exponent, fraction, h, rfl⟩
  · rw [unitsAt_of_lt h]
    rcases Nat.eq_zero_or_pos scale with rfl | hscale
    · exact .inl ⟨m, (Nat.mul_one m).symm⟩
    · exact .inr ⟨hscale, h.trans_le (Nat.le_mul_of_pos_right _ (Nat.two_pow_pos scale))⟩
  rw [unitsAt_normal exponent h]
  rcases Nat.lt_or_ge exponent scale with hlt | hge
  · right
    refine ⟨Nat.zero_lt_of_lt hlt, ?_⟩
    calc (leadingBit + fraction) * 2 ^ exponent
      _ < 2 * leadingBit * 2 ^ exponent := by
        gcongr
        omega
      _ = leadingBit * 2 ^ (exponent + 1) := by ring
      _ ≤ leadingBit * 2 ^ scale := by
        gcongr
        · decide
        · exact hlt
  · refine .inl ⟨(leadingBit + fraction) * 2 ^ (exponent - scale), ?_⟩
    rw [Nat.mul_assoc, ← Nat.pow_add, Nat.sub_add_cancel hge]

/-! ## The grid of a quotient -/

theorem cast_leadingBit : (leadingBit : ℚ) = 2 ^ 52 := by norm_num [leadingBit]

/-- **The nearest point of the grid of a quotient**: a significand at a scale, where the quotient has
at most 53 bits before the point, and no fewer unless the scale is the least. -/
structure Fitting (q : ℚ) (scale n : ℕ) : Prop where
  near : |(n : ℚ) - q / 2 ^ scale| ≤ 1 / 2
  even : |(n : ℚ) - q / 2 ^ scale| = 1 / 2 → n % 2 = 0
  lt : q / 2 ^ scale < 2 ^ 53
  full : scale = 0 ∨ 2 ^ 52 ≤ q / 2 ^ scale

/-- The scale at which a quotient is rounded. -/
def scaleOf (num den : ℕ) : ℕ := (num * one / den).log2 - 52

/-- The significand to which a quotient is rounded. -/
def significandOf (num den : ℕ) : ℕ := roundEven (num * one) (den <<< scaleOf num den)

/-- **A quotient is rounded on its grid.** -/
theorem fitting_significandOf (num : ℕ) {den : ℕ} (h : 0 < den) :
    Fitting ((num * one : ℕ) / den) (scaleOf num den) (significandOf num den) := by
  have hden : (0 : ℚ) < den := by exact_mod_cast h
  have hscaled : ((num * one : ℕ) : ℚ) / den / 2 ^ scaleOf num den =
      (num * one : ℕ) / (den <<< scaleOf num den : ℕ) := by
    rw [Nat.shiftLeft_eq, div_div]
    push_cast
    rfl
  have hpos : 0 < den <<< scaleOf num den := by
    rw [Nat.shiftLeft_eq]
    exact Nat.mul_pos h (Nat.two_pow_pos _)
  have spec := roundEven_spec (num * one) hpos
  refine ⟨hscaled ▸ spec.1, hscaled ▸ spec.2, ?_, ?_⟩
  · rw [div_lt_iff₀ (by positivity), div_lt_iff₀ hden, ← pow_add]
    have hlog : num * one / den < 2 ^ (53 + scaleOf num den) :=
      Nat.lt_log2_self.trans_le (Nat.pow_le_pow_right two_pos (by unfold scaleOf; omega))
    rw [Nat.div_lt_iff_lt_mul h] at hlog
    exact_mod_cast hlog
  · rcases Nat.eq_zero_or_pos (scaleOf num den) with hscale | hscale
    · exact .inl hscale
    right
    rw [le_div_iff₀ (by positivity), le_div_iff₀ hden, ← pow_add]
    have hne : num * one / den ≠ 0 := by
      intro hzero
      simp [scaleOf, hzero] at hscale
    have hlog : 2 ^ (52 + scaleOf num den) ≤ num * one / den := by
      have hexp : 52 + scaleOf num den = (num * one / den).log2 := by
        unfold scaleOf at *
        omega
      exact hexp ▸ Nat.log2_self_le hne
    rw [Nat.le_div_iff_mul_le h] at hlog
    exact_mod_cast hlog

namespace Fitting

variable {q q' : ℚ} {scale scale' n n' : ℕ}

theorem le_two_mul (h : Fitting q scale n) : n ≤ 2 * leadingBit := by
  have hn : (n : ℚ) < 2 * leadingBit + 1 := by
    rw [cast_leadingBit]
    linarith [(abs_le.mp h.near).2, h.lt]
  exact Nat.le_of_lt_succ (by exact_mod_cast hn)

theorem leadingBit_le (h : Fitting q scale n) : scale = 0 ∨ leadingBit ≤ n := by
  refine h.full.imp_right fun hfull => ?_
  have hn : (leadingBit : ℚ) < n + 1 := by
    rw [cast_leadingBit]
    linarith [(abs_le.mp h.near).1]
  exact Nat.le_of_lt_succ (by exact_mod_cast hn)

/-- The units of the number that has the scale and the significand. -/
theorem unitsAt_eq (h : Fitting q scale n) : unitsAt (scale * leadingBit + n) = n * 2 ^ scale :=
  unitsAt_add h.leadingBit_le h.le_two_mul

/-- The distance of a point of the grid, in units. -/
theorem abs_mul_two_pow_sub (k scale : ℕ) (q : ℚ) :
    |((k * 2 ^ scale : ℕ) : ℚ) - q| = |(k : ℚ) - q / 2 ^ scale| * 2 ^ scale := by
  have hpos : (0 : ℚ) < 2 ^ scale := by positivity
  rw [← abs_of_pos hpos, ← abs_mul, abs_of_pos hpos, sub_mul, div_mul_cancel₀ _ hpos.ne']
  push_cast
  rfl

/-- A number that lacks the full length of the scale is further away than one that has it. -/
theorem abs_sub_lt_of_lt (h : Fitting q scale n) (hscale : 0 < scale) {k : ℕ}
    (hk : k < leadingBit * 2 ^ scale) :
    |((n * 2 ^ scale : ℕ) : ℚ) - q| < |(k : ℚ) - q| := by
  have hpos : (0 : ℚ) < 2 ^ scale := by positivity
  have hfull : ((leadingBit * 2 ^ scale : ℕ) : ℚ) ≤ q := by
    have hfull := h.full.resolve_left hscale.ne'
    rw [le_div_iff₀ hpos, ← cast_leadingBit] at hfull
    exact_mod_cast hfull
  have hlt : (k : ℚ) < (leadingBit * 2 ^ scale : ℕ) := by exact_mod_cast hk
  calc |((n * 2 ^ scale : ℕ) : ℚ) - q|
    _ ≤ |((leadingBit * 2 ^ scale : ℕ) : ℚ) - q| := by
      rw [abs_mul_two_pow_sub, abs_mul_two_pow_sub]
      exact mul_le_mul_of_nonneg_right (abs_sub_le_of_le_half h.near leadingBit) hpos.le
    _ < |(k : ℚ) - q| := by
      rw [abs_of_nonpos (by linarith), abs_of_nonpos (by linarith)]
      linarith

/-- **No number is nearer.** -/
theorem abs_sub_le (h : Fitting q scale n) (m : ℕ) :
    |(unitsAt (scale * leadingBit + n) : ℚ) - q| ≤ |(unitsAt m : ℚ) - q| := by
  rw [h.unitsAt_eq]
  rcases unitsAt_cases scale m with ⟨k, hk⟩ | ⟨hscale, hlt⟩
  · rw [hk, abs_mul_two_pow_sub, abs_mul_two_pow_sub]
    exact mul_le_mul_of_nonneg_right (abs_sub_le_of_le_half h.near k) (by positivity)
  · exact (h.abs_sub_lt_of_lt hscale hlt).le

/-- **Of two numbers that are equally near the even one is taken.** -/
theorem even_of_abs_sub_eq (h : Fitting q scale n) {m : ℕ}
    (hne : unitsAt m ≠ unitsAt (scale * leadingBit + n))
    (heq : |(unitsAt m : ℚ) - q| = |(unitsAt (scale * leadingBit + n) : ℚ) - q|) :
    (scale * leadingBit + n) % 2 = 0 := by
  rw [h.unitsAt_eq] at hne heq
  rcases unitsAt_cases scale m with ⟨k, hk⟩ | ⟨hscale, hlt⟩
  · have hpos : (0 : ℚ) < 2 ^ scale := by positivity
    rw [hk, abs_mul_two_pow_sub, abs_mul_two_pow_sub] at heq
    have hkn : k ≠ n := by
      rintro rfl
      exact hne hk
    have := h.even (abs_sub_eq_half h.near hkn (mul_right_cancel₀ hpos.ne' heq))
    unfold leadingBit
    omega
  · exact absurd heq (h.abs_sub_lt_of_lt hscale hlt).ne'

/-- A quotient up to half a unit is rounded to zero. -/
theorem eq_zero_of_le_half (h : Fitting q scale n) (hnonneg : 0 ≤ q) (hq : q ≤ 1 / 2) :
    scale * leadingBit + n = 0 := by
  have hscale : scale = 0 := by
    refine h.full.resolve_right fun hfull => ?_
    have hone : (1 : ℚ) ≤ 2 ^ scale := one_le_pow₀ one_le_two
    linarith [div_le_self hnonneg hone]
  subst hscale
  have hnear := h.near
  have heven := h.even
  rw [pow_zero, div_one] at hnear heven
  have hn : (n : ℚ) < 2 := by linarith [(abs_le.mp hnear).2]
  have hn : n < 2 := by exact_mod_cast hn
  obtain rfl | rfl : n = 0 ∨ n = 1 := by omega
  · rfl
  · have hhalf : q = 1 / 2 := by
      rw [Nat.cast_one] at hnear
      linarith [(abs_le.mp hnear).2]
    rw [hhalf] at heven
    norm_num at heven

/-! ### Scales -/

/-- A quotient of a smaller scale is below the power of two with which a larger scale begins. -/
theorem lt_of_scale_lt (h : Fitting q scale n) {top : ℕ} (hlt : scale < top) :
    q < 2 ^ 52 * 2 ^ top := by
  have hq := h.lt
  rw [div_lt_iff₀ (by positivity)] at hq
  have hpow : (2 : ℚ) ^ (scale + 1) ≤ 2 ^ top := pow_le_pow_right₀ one_le_two hlt
  rw [pow_succ] at hpow
  linarith

/-- A quotient of a larger scale is at least the power of two with which that scale begins. -/
theorem le_of_lt_scale (h : Fitting q scale n) {top : ℕ} (hgt : top < scale) :
    2 ^ 53 * 2 ^ top ≤ q := by
  have hq := h.full.resolve_left (Nat.zero_lt_of_lt hgt).ne'
  rw [le_div_iff₀ (by positivity)] at hq
  have hpow : (2 : ℚ) ^ (top + 1) ≤ 2 ^ scale := pow_le_pow_right₀ one_le_two hgt
  rw [pow_succ] at hpow
  linarith

/-- The carry of a smaller scale is no more than the leading bit of a larger one. -/
theorem add_le_of_scale_lt (h : Fitting q scale n) {top : ℕ} (hlt : scale < top) :
    scale * leadingBit + n ≤ (top + 1) * leadingBit :=
  calc scale * leadingBit + n
    _ ≤ (scale + 2) * leadingBit := by linarith [h.le_two_mul]
    _ ≤ (top + 1) * leadingBit := Nat.mul_le_mul_right _ (Nat.succ_lt_succ hlt)

theorem le_add_of_lt_scale (h : Fitting q scale n) {top : ℕ} (hgt : top < scale) :
    (top + 2) * leadingBit ≤ scale * leadingBit + n :=
  calc (top + 2) * leadingBit
    _ = (top + 1) * leadingBit + leadingBit := Nat.succ_mul _ _
    _ ≤ scale * leadingBit + n := Nat.add_le_add (Nat.mul_le_mul_right _ hgt)
      (h.leadingBit_le.resolve_left (Nat.zero_lt_of_lt hgt).ne')

/-- **What is rounded up to the next scale**: at least the mean of the power of two with which that
scale begins and the largest point below it. -/
theorem two_mul_leadingBit_le_iff (h : Fitting q scale n) :
    2 * leadingBit ≤ n ↔ 2 ^ 53 - 1 / 2 ≤ q / 2 ^ scale := by
  obtain ⟨hdown, hup⟩ := abs_le.mp h.near
  have htop : ((2 * leadingBit : ℕ) : ℚ) = 2 ^ 53 := by
    rw [Nat.cast_mul, cast_leadingBit]
    norm_num
  constructor
  · intro hle
    rw [h.le_two_mul.antisymm hle, htop] at hup
    linarith
  · intro hle
    by_contra! hlt
    have hn : (n : ℚ) + 1 ≤ (2 * leadingBit : ℕ) := by exact_mod_cast hlt
    have hodd : (n : ℚ) + 1 = (2 * leadingBit : ℕ) := by linarith
    have heven := h.even (by rw [abs_of_nonpos] <;> linarith)
    have hodd : n + 1 = 2 * leadingBit := by exact_mod_cast hodd
    omega

/-- **What is rounded to a power of two or beyond it**: at least the mean of that power and the
largest number below it. -/
theorem mul_leadingBit_le_iff (h : Fitting q scale n) (top : ℕ) :
    (top + 2) * leadingBit ≤ scale * leadingBit + n ↔ (2 ^ 53 - 1 / 2) * 2 ^ top ≤ q := by
  have htop : (0 : ℚ) < 2 ^ top := by positivity
  rcases Nat.lt_trichotomy scale top with hlt | rfl | hgt
  · have hq := h.lt_of_scale_lt hlt
    have hadd := h.add_le_of_scale_lt hlt
    have hstep : (top + 1) * leadingBit < (top + 2) * leadingBit :=
      Nat.mul_lt_mul_of_pos_right (Nat.lt_succ_self _) (by decide)
    exact iff_of_false (hadd.trans_lt hstep).not_ge (by linarith)
  · rw [← le_div_iff₀ htop, Nat.add_mul, Nat.add_le_add_iff_left]
    exact h.two_mul_leadingBit_le_iff
  · have hq := h.le_of_lt_scale hgt
    exact iff_of_true (h.le_add_of_lt_scale hgt) (by linarith)

/-- **Rounding is monotone.** -/
theorem mono (h : Fitting q scale n) (h' : Fitting q' scale' n') (hq : q ≤ q') :
    scale * leadingBit + n ≤ scale' * leadingBit + n' := by
  rcases Nat.lt_trichotomy scale scale' with hlt | rfl | hgt
  · have hn' := h'.leadingBit_le.resolve_left (Nat.zero_lt_of_lt hlt).ne'
    calc scale * leadingBit + n
      _ ≤ scale' * leadingBit + leadingBit := (h.add_le_of_scale_lt hlt).trans (Nat.succ_mul _ _).le
      _ ≤ scale' * leadingBit + n' := Nat.add_le_add_left hn' _
  · rw [Nat.add_le_add_iff_left]
    by_contra! hn
    have hstep : (n' : ℚ) + 1 ≤ n := by exact_mod_cast hn
    have hdiv : q / 2 ^ scale ≤ q' / 2 ^ scale := by gcongr
    obtain ⟨-, hup⟩ := abs_le.mp h.near
    obtain ⟨hdown, -⟩ := abs_le.mp h'.near
    -- both are half a step away from the same quotient, and both are even
    have := h.even (by rw [abs_of_nonneg] <;> linarith)
    have := h'.even (by rw [abs_of_nonpos] <;> linarith)
    have hn' : (n : ℚ) = (n' + 1 : ℕ) := by
      push_cast
      linarith
    have : n = n' + 1 := by exact_mod_cast hn'
    omega
  · -- the quotient would have 53 bits before the point at the smaller scale already
    have hfull := h.full.resolve_left (Nat.zero_lt_of_lt hgt).ne'
    rw [le_div_iff₀ (by positivity)] at hfull
    linarith [h'.lt_of_scale_lt hgt]

/-- A quotient has one rounding. -/
theorem unique (h : Fitting q scale n) (h' : Fitting q scale' n') :
    scale * leadingBit + n = scale' * leadingBit + n' :=
  (h.mono h' le_rfl).antisymm (h'.mono h le_rfl)

end Fitting

/-- The units of a magnitude are a point of their own grid. -/
theorem exists_fitting_unitsAt (m : ℕ) : ∃ scale n, scale * leadingBit + n = m ∧
    Fitting (unitsAt m) scale n := by
  have whole {scale n : ℕ} (hn : n < 2 ^ 53) (hfull : scale = 0 ∨ 2 ^ 52 ≤ n) :
      Fitting (n * 2 ^ scale : ℕ) scale n := by
    have hpos : (0 : ℚ) < 2 ^ scale := by positivity
    have hdiv : ((n * 2 ^ scale : ℕ) : ℚ) / 2 ^ scale = n := by
      push_cast
      exact mul_div_cancel_right₀ _ hpos.ne'
    constructor
    · rw [hdiv, sub_self, abs_zero]
      exact one_half_pos.le
    · rw [hdiv, sub_self, abs_zero]
      intro hzero
      norm_num at hzero
    · rw [hdiv]
      exact_mod_cast hn
    · rw [hdiv]
      exact hfull.imp_right fun hle => by exact_mod_cast hle
  rcases exists_magnitude_eq m with h | ⟨exponent, fraction, h, rfl⟩
  · refine ⟨0, m, by rw [Nat.zero_mul, Nat.zero_add], ?_⟩
    rw [unitsAt_of_lt h]
    simpa using whole (h.trans (by decide)) (.inl rfl)
  · refine ⟨exponent, leadingBit + fraction, by rw [Nat.succ_mul, Nat.add_assoc], ?_⟩
    rw [unitsAt_normal exponent h]
    refine whole ?_ (.inr (Nat.le_add_right _ _))
    exact (Nat.add_lt_add_left h _).trans_le (by decide)

end Binary64

end Lox.Number
