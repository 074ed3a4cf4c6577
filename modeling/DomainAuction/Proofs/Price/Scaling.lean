import DomainAuction.Price.Decimal
import Mathlib

/-!
# Scaling — powers of ten that lose nothing

A decimal stands for a rational number. Every step by ten is exact while there is a place to give or
to take: multiplying fails only where the result has no room, and dividing rounds only where all
places are used up. So a number with enough free places is multiplied by a power of ten exactly,
whenever the result is below `2 ^ 96`, and is then written with as few places as it needs.
-/

namespace DomainAuction

namespace Decimal

/-- The number that a decimal stands for. -/
def value (d : Decimal) : ℚ := d.coefficient / 10 ^ d.scale

/-- No decimal for the same number has fewer places. -/
def Lowest (d : Decimal) : Prop := ∀ x : Decimal, x.value = d.value → d.scale ≤ x.scale

variable {d x y : Decimal} {power : Int} {steps : Nat}

theorem value_mk_zero (c : Int) (hc : c.natAbs < 79228162514264337593543950336) (hs : 0 ≤ 28) :
    (⟨c, 0, hc, hs⟩ : Decimal).value = c := by
  simp [value]

/-- A coefficient has room exactly if it is below `2 ^ 96`. -/
theorem natAbs_lt_iff (c : Int) :
    c.natAbs < 79228162514264337593543950336 ↔ |(c : ℚ)| < 2 ^ 96 := by
  rw [← Int.cast_abs, Int.abs_eq_natAbs]
  norm_cast

theorem abs_value_le (d : Decimal) : |d.value| ≤ |(d.coefficient : ℚ)| := by
  have hten : (1 : ℚ) ≤ 10 ^ d.scale := one_le_pow₀ (by norm_num)
  rw [value, abs_div, abs_of_pos (lt_of_lt_of_le one_pos hten)]
  exact div_le_self (abs_nonneg _) hten

/-- Places only make a number smaller. -/
theorem abs_value_lt (d : Decimal) : |d.value| < 2 ^ 96 :=
  lt_of_le_of_lt d.abs_value_le ((natAbs_lt_iff _).1 d.coefficient_lt)

/-- Every number that a decimal stands for is a whole number of units in the last of 28 places. -/
theorem exists_units (d : Decimal) : ∃ n : ℤ, d.value = n / 10 ^ 28 := by
  have hplaces : (10 : ℚ) ^ 28 = 10 ^ d.scale * 10 ^ (28 - d.scale) := by
    rw [← pow_add, Nat.add_sub_cancel' d.scale_le]
  refine ⟨d.coefficient * 10 ^ (28 - d.scale), ?_⟩
  rw [value, hplaces]
  push_cast
  field_simp

/-! ## The fewest places -/

/-- A number with places is in lowest scale if the last of them is not zero. -/
theorem lowest_of_not_dvd (h : d.scale = 0 ∨ ¬ (10 : Int) ∣ d.coefficient) : d.Lowest := by
  intro x hx
  rcases h with hzero | hdvd
  · rw [hzero]
    exact Nat.zero_le _
  · by_contra hlt
    -- with fewer places the coefficient would be a multiple of ten
    obtain ⟨k, hk⟩ : ∃ k, d.scale = x.scale + (k + 1) := ⟨d.scale - x.scale - 1, by omega⟩
    have hpos : (10 : ℚ) ^ x.scale ≠ 0 := by positivity
    have hrest : (10 : ℚ) ^ (k + 1) ≠ 0 := by positivity
    have hmul : (d.coefficient : ℚ) = x.coefficient * 10 ^ (k + 1) := by
      rw [value, value, hk, pow_add] at hx
      field_simp at hx
      linarith
    have hint : d.coefficient = x.coefficient * 10 ^ (k + 1) := by exact_mod_cast hmul
    exact hdvd (hint ▸ Dvd.dvd.mul_left (dvd_pow_self 10 (Nat.succ_ne_zero k)) _)

/-- **One spelling**: a number has only one decimal in lowest scale. -/
theorem Lowest.eq_of_value_eq (hx : x.Lowest) (hy : y.Lowest) (h : x.value = y.value) : x = y := by
  have hscale : x.scale = y.scale := le_antisymm (hx y h.symm) (hy x h)
  have hpos : (10 : ℚ) ^ y.scale ≠ 0 := by positivity
  have hcoeff : x.coefficient = y.coefficient := by
    rw [value, value, hscale, div_left_inj' hpos] at h
    exact_mod_cast h
  cases x
  cases y
  cases hscale
  cases hcoeff
  rfl

/-- Zero has no places. -/
theorem Lowest.scale_eq_zero (h : d.Lowest) (hd : d.value = 0) : d.scale = 0 := by
  have hzero : (⟨0, 0, by decide, by decide⟩ : Decimal).value = d.value := by
    rw [hd, value_mk_zero, Int.cast_zero]
  exact Nat.le_zero.1 (h _ hzero)

/-- Trailing zeros do not change the number, and none is left while there are places. -/
theorem strip_spec (scale : Nat) (c : Int) :
    ((strip scale c).1 : ℚ) / 10 ^ (strip scale c).2 = c / 10 ^ scale ∧
      ((strip scale c).2 = 0 ∨ ¬ (10 : Int) ∣ (strip scale c).1) := by
  induction scale generalizing c with
  | zero => simp [strip]
  | succ scale ih =>
    unfold strip
    split
    · next h =>
      obtain ⟨k, rfl⟩ := Int.dvd_of_emod_eq_zero h
      rw [Int.mul_ediv_cancel_left k (by norm_num)]
      refine ⟨?_, (ih k).2⟩
      rw [(ih k).1, pow_succ]
      push_cast
      field_simp
    · next h => exact ⟨rfl, .inr fun hdvd => h (Int.emod_eq_zero_of_dvd hdvd)⟩

theorem value_normalize (d : Decimal) : d.normalize.value = d.value :=
  (strip_spec d.scale d.coefficient).1

theorem lowest_normalize (d : Decimal) : d.normalize.Lowest :=
  lowest_of_not_dvd (strip_spec d.scale d.coefficient).2

/-! ## Multiplying -/

/-- **A step up is exact, and fails only where there is no room.** -/
theorem timesTen_cases (d : Decimal) :
    (∃ y, d.timesTen = some y ∧ y.value = d.value * 10 ∧ |d.value * 10| < 2 ^ 96) ∨
      (d.timesTen = none ∧ 2 ^ 96 ≤ |d.value * 10|) := by
  obtain ⟨c, scale, hc, hs⟩ := d
  cases scale with
  | succ scale =>
    -- a place less is ten times the number
    have hval : (⟨c, scale, hc, by omega⟩ : Decimal).value
        = (⟨c, scale + 1, hc, hs⟩ : Decimal).value * 10 := by
      simp only [value, pow_succ]
      field_simp
    exact .inl ⟨_, rfl, hval, hval ▸ abs_value_lt _⟩
  | zero =>
    have hval : (⟨c, 0, hc, hs⟩ : Decimal).value * 10 = ((10 * c : Int) : ℚ) := by
      rw [value_mk_zero]
      push_cast
      ring
    rw [hval]
    by_cases hfit : (10 * c).natAbs < 79228162514264337593543950336
    · refine .inl ⟨⟨10 * c, 0, hfit, by omega⟩, ?_, value_mk_zero _ _ _, (natAbs_lt_iff _).1 hfit⟩
      simp [timesTen, ofScaled?, hfit]
    · refine .inr ⟨?_, not_lt.1 fun hlt => hfit ((natAbs_lt_iff _).2 hlt)⟩
      simp [timesTen, ofScaled?, hfit]

/-- Steps up lead to the multiple by a power of ten, and fail only where that has no room: no number
on the way is larger than the last one. -/
theorem scaleUp_cases (steps : Nat) (d : Decimal) :
    (∃ y, scaleUp steps d = some y ∧ y.value = d.value * 10 ^ steps
        ∧ |d.value * 10 ^ steps| < 2 ^ 96) ∨
      (scaleUp steps d = none ∧ 2 ^ 96 ≤ |d.value * 10 ^ steps|) := by
  induction steps generalizing d with
  | zero => exact .inl ⟨d, rfl, by simp, by simpa using d.abs_value_lt⟩
  | succ steps ih =>
    have hpow : d.value * 10 ^ (steps + 1) = d.value * 10 * 10 ^ steps := by ring
    rw [scaleUp, hpow]
    rcases d.timesTen_cases with ⟨y, hy, hval, -⟩ | ⟨hnone, hbig⟩
    · rw [hy, Option.bind_some, ← hval]
      exact ih y
    · refine .inr ⟨by rw [hnone, Option.bind_none], ?_⟩
      have hten : (1 : ℚ) ≤ |(10 : ℚ) ^ steps| := by
        rw [abs_of_pos (by positivity)]
        exact one_le_pow₀ (by norm_num)
      rw [abs_mul _ ((10 : ℚ) ^ steps)]
      exact hbig.trans (le_mul_of_one_le_right (abs_nonneg _) hten)

/-! ## Dividing -/

/-- A step down is exact while there is a place to add. -/
theorem overTen_of_lt (h : d.scale < 28) :
    d.overTen.value = d.value / 10 ∧ d.overTen.scale = d.scale + 1 := by
  simp only [overTen, dif_pos h, value, pow_succ, and_true]
  field_simp

/-- Steps down are exact while there are places for all of them. -/
theorem value_scaleDown (h : d.scale + steps ≤ 28) :
    (scaleDown steps d).value = d.value / 10 ^ steps := by
  induction steps generalizing d with
  | zero => simp [scaleDown]
  | succ steps ih =>
    obtain ⟨hval, hscale⟩ := overTen_of_lt (d := d) (by omega)
    rw [scaleDown, ih (by omega), hval, pow_succ]
    field_simp

/-! ## Powers of ten -/

/-- A power of ten times a number with enough free places: the result if it has room, else
nothing. -/
theorem timesPowerOfTen_cases (h : (d.scale : Int) ≤ 28 + power) :
    (∃ y, d.timesPowerOfTen power = some y ∧ y.value = d.value * 10 ^ power ∧ y.Lowest
        ∧ |d.value * 10 ^ power| < 2 ^ 96) ∨
      (d.timesPowerOfTen power = none ∧ 2 ^ 96 ≤ |d.value * 10 ^ power|) := by
  cases power with
  | ofNat steps =>
    simp only [timesPowerOfTen, Int.ofNat_eq_natCast, zpow_natCast]
    rcases scaleUp_cases steps d with ⟨y, hy, hval, hlt⟩ | ⟨hnone, hbig⟩
    · refine .inl ⟨y.normalize, by rw [hy, Option.map_some], ?_, y.lowest_normalize, hlt⟩
      rw [value_normalize, hval]
    · exact .inr ⟨by rw [hnone, Option.map_none], hbig⟩
  | negSucc steps =>
    -- no step rounds, and nothing grows
    have hval : (scaleDown (steps + 1) d).value = d.value * 10 ^ (Int.negSucc steps) := by
      rw [value_scaleDown (by omega), zpow_negSucc, div_eq_mul_inv]
    refine .inl ⟨_, rfl, ?_, lowest_normalize _, hval ▸ abs_value_lt _⟩
    rw [value_normalize, hval]

/-- **Exact scaling**: a power of ten times a number with enough free places is given exactly, in
lowest scale, if it is below `2 ^ 96`. -/
theorem timesPowerOfTen_eq_some_iff (h : (d.scale : Int) ≤ 28 + power) :
    d.timesPowerOfTen power = some x
      ↔ |d.value * 10 ^ power| < 2 ^ 96 ∧ x.value = d.value * 10 ^ power ∧ x.Lowest := by
  rcases timesPowerOfTen_cases h with ⟨y, hy, hval, hlow, hlt⟩ | ⟨hnone, hbig⟩
  · rw [hy, Option.some.injEq]
    constructor
    · rintro rfl
      exact ⟨hlt, hval, hlow⟩
    · rintro ⟨-, hx, hxlow⟩
      exact hlow.eq_of_value_eq hxlow (hval.trans hx.symm)
  · rw [hnone]
    constructor
    · intro hsome
      cases hsome
    · rintro ⟨hlt, -, -⟩
      exact absurd hlt (not_lt.2 hbig)

theorem timesPowerOfTen_eq_none_iff (h : (d.scale : Int) ≤ 28 + power) :
    d.timesPowerOfTen power = none ↔ 2 ^ 96 ≤ |d.value * 10 ^ power| := by
  rcases timesPowerOfTen_cases h with ⟨y, hy, -, -, hlt⟩ | ⟨hnone, hbig⟩
  · simp only [hy, reduceCtorEq, false_iff, not_le]
    exact hlt
  · simp only [hnone, true_iff]
    exact hbig

end Decimal

end DomainAuction
