import DomainAuction.Proofs.Price.Scaling

/-!
# Rounding — powers of ten that lose places

A negative power of ten divides by ten step by step, and once all 28 places are used up every step
rounds what the step before it has left. Each rounding is right for the coefficient that it finds.
The errors of the earlier ones weigh a tenth at every further step, so all of them together stay
below five ninths of a unit in the last place, where one rounding of the exact number stays within
half a unit.

The result is the exact number rounded once, unless the last step finds a tie that is none: the
coefficient before it ends in a five although the exact number lies beside it, and the even
neighbour of the five lies on the other side. This takes two roundings at least.
-/

namespace DomainAuction

namespace Decimal

variable {c y n : ℤ} {x z : ℚ} {d v : Decimal} {steps rounds : Nat}

/-! ## Rounding once -/

/-- The integer nearest to a number, and the even one where two are nearest. -/
def IsNearestEven (x : ℚ) (n : ℤ) : Prop :=
  |x - n| ≤ 1 / 2 ∧ (|x - n| = 1 / 2 → Even n)

/-- A decimal is a number rounded once, half to even, to 28 places. -/
def RoundedOnce (x : ℚ) (d : Decimal) : Prop :=
  ∃ n : ℤ, IsNearestEven (x * 10 ^ 28) n ∧ d.value = n / 10 ^ 28

theorem isNearestEven_of_abs_lt (h : |x - n| < 1 / 2) : IsNearestEven x n :=
  ⟨h.le, fun heq => absurd heq h.ne⟩

/-- Only one integer can be the coefficient of a decimal with 28 places. -/
theorem roundedOnce_iff (h : d.value = n / 10 ^ 28) :
    RoundedOnce x d ↔ IsNearestEven (x * 10 ^ 28) n := by
  constructor
  · rintro ⟨m, hm, hvalue⟩
    have hmn : m = n := by
      rw [h] at hvalue
      exact_mod_cast (div_left_inj' (by norm_num : (10 : ℚ) ^ 28 ≠ 0)).1 hvalue.symm
    exact hmn ▸ hm
  · intro hn
    exact ⟨n, hn, h⟩

/-- Places do not matter, only the number. -/
theorem roundedOnce_congr {d' : Decimal} (h : d.value = d'.value) :
    RoundedOnce x d ↔ RoundedOnce x d' := by
  unfold RoundedOnce
  rw [h]

theorem RoundedOnce.abs_sub_le (h : RoundedOnce x d) : |d.value - x| ≤ 1 / 2 / 10 ^ 28 := by
  obtain ⟨n, ⟨hnear, -⟩, hvalue⟩ := h
  have hunit : d.value - x = -(x * 10 ^ 28 - n) / 10 ^ 28 := by
    rw [hvalue]
    ring
  rw [hunit, abs_div, abs_neg, abs_of_pos (by norm_num : (0 : ℚ) < 10 ^ 28)]
  gcongr

/-! ## One step -/

/-- A number `z` of which only the integer `y` beside it is known, and a tenth of `y` is a tie that
goes away from `z`. -/
def BreaksFalseTie (z : ℚ) (y : ℤ) : Prop :=
  y % 10 = 5 ∧ (z < y ∧ Odd (y / 10) ∨ y < z ∧ Even (y / 10))

theorem not_breaksFalseTie_self (y : ℤ) : ¬ BreaksFalseTie y y := by
  rintro ⟨-, ⟨hlt, -⟩ | ⟨hlt, -⟩⟩
  · exact lt_irrefl _ hlt
  · exact lt_irrefl _ hlt

theorem cast_eq_tens_add_digit (y : ℤ) : (y : ℚ) = 10 * (y / 10 : ℤ) + (y % 10 : ℤ) := by
  exact_mod_cast (Int.mul_ediv_add_emod y 10).symm

/-- Beside an integer that is no tie, all numbers have a tenth on the same side of the half. -/
theorem abs_sub_roundTenth_lt (h : |z - y| < 1) (hdigit : y % 10 ≠ 5) :
    |z / 10 - roundTenth y| < 1 / 2 := by
  obtain ⟨hlow, hhigh⟩ := abs_lt.1 h
  have hy := cast_eq_tens_add_digit y
  rw [abs_lt]
  rcases lt_or_gt_of_ne hdigit with hlt | hgt
  · have hsmall : (0 : ℚ) ≤ (y % 10 : ℤ) ∧ ((y % 10 : ℤ) : ℚ) ≤ 4 := by
      exact_mod_cast And.intro (by omega : 0 ≤ y % 10) (by omega : y % 10 ≤ 4)
    have hdown : roundTenth y = y / 10 := if_neg (by omega)
    rw [hdown]
    constructor <;> linarith
  · have hlarge : (6 : ℚ) ≤ (y % 10 : ℤ) ∧ ((y % 10 : ℤ) : ℚ) ≤ 9 := by
      exact_mod_cast And.intro (by omega : 6 ≤ y % 10) (by omega : y % 10 ≤ 9)
    have hup : roundTenth y = y / 10 + 1 := if_pos (.inl hgt)
    rw [hup]
    push_cast
    constructor <;> linarith

/-- A tie goes to the even side, which is right for the numbers on that side only. -/
theorem isNearestEven_roundTenth_of_tie (h : |z - y| < 1) (hdigit : y % 10 = 5) :
    IsNearestEven (z / 10) (roundTenth y)
      ↔ ¬ (z < y ∧ Odd (y / 10) ∨ y < z ∧ Even (y / 10)) := by
  obtain ⟨hlow, hhigh⟩ := abs_lt.1 h
  have hy := cast_eq_tens_add_digit y
  rw [hdigit] at hy
  push_cast at hy
  rcases Int.even_or_odd (y / 10) with heven | hodd
  · have hdown : roundTenth y = y / 10 := if_neg (by have := Int.even_iff.1 heven; omega)
    have hnot : ¬ Odd (y / 10) := Int.not_odd_iff_even.2 heven
    simp only [hdown, hnot, heven, and_false, and_true, false_or, not_lt]
    constructor
    · rintro ⟨hnear, -⟩
      have hle := (abs_le.1 hnear).2
      linarith
    · intro hle
      exact ⟨abs_le.2 ⟨by linarith, by linarith⟩, fun _ => heven⟩
  · have hup : roundTenth y = y / 10 + 1 := if_pos (.inr ⟨hdigit, Int.odd_iff.1 hodd⟩)
    have hnot : ¬ Even (y / 10) := Int.not_even_iff_odd.2 hodd
    simp only [hup, hnot, hodd, and_false, and_true, or_false, not_lt]
    unfold IsNearestEven
    push_cast
    constructor
    · rintro ⟨hnear, -⟩
      have hle := (abs_le.1 hnear).1
      linarith
    · intro hle
      exact ⟨abs_le.2 ⟨by linarith, by linarith⟩, fun _ => hodd.add_one⟩

/-- **A tenth of the integer beside a number rounds as a tenth of the number does**, but for a tie
that is none. -/
theorem isNearestEven_roundTenth_iff (h : |z - y| < 1) :
    IsNearestEven (z / 10) (roundTenth y) ↔ ¬ BreaksFalseTie z y := by
  unfold BreaksFalseTie
  by_cases hdigit : y % 10 = 5
  · rw [isNearestEven_roundTenth_of_tie h hdigit, and_iff_right hdigit]
  · have hnear := isNearestEven_of_abs_lt (abs_sub_roundTenth_lt h hdigit)
    exact iff_of_true hnear fun hfalse => hdigit hfalse.1

theorem abs_sub_roundTenth_le (c : ℤ) : |(c : ℚ) / 10 - roundTenth c| ≤ 1 / 2 :=
  ((isNearestEven_roundTenth_iff (by simp)).2 (not_breaksFalseTie_self c)).1

/-! ## Many steps -/

/-- **The error of many roundings**: every one adds half a unit and a tenth of what was there. -/
theorem abs_sub_iterate_roundTenth_le (c : ℤ) (rounds : Nat) :
    |(c : ℚ) / 10 ^ rounds - (roundTenth^[rounds] c : ℤ)| ≤ 5 / 9 * (1 - 1 / 10 ^ rounds) := by
  induction rounds with
  | zero => simp
  | succ rounds ih =>
    rw [Function.iterate_succ_apply']
    generalize roundTenth^[rounds] c = y at ih ⊢
    have hsplit : (c : ℚ) / 10 ^ (rounds + 1) - roundTenth y
        = (c / 10 ^ rounds - y) / 10 + (y / 10 - roundTenth y) := by
      rw [pow_succ]
      field_simp
      ring
    have hstep := abs_sub_roundTenth_le y
    calc |(c : ℚ) / 10 ^ (rounds + 1) - roundTenth y|
        ≤ |((c : ℚ) / 10 ^ rounds - y) / 10| + |(y : ℚ) / 10 - roundTenth y| := by
          rw [hsplit]
          exact abs_add_le _ _
      _ ≤ 5 / 9 * (1 - 1 / 10 ^ rounds) / 10 + 1 / 2 := by
          rw [abs_div, abs_of_pos (by norm_num : (0 : ℚ) < 10)]
          gcongr
      _ = 5 / 9 * (1 - 1 / 10 ^ (rounds + 1)) := by
          rw [pow_succ]
          field_simp
          ring

theorem abs_sub_iterate_roundTenth_lt (c : ℤ) (rounds : Nat) :
    |(c : ℚ) / 10 ^ rounds - (roundTenth^[rounds] c : ℤ)| < 5 / 9 := by
  have hpos : (0 : ℚ) < 1 / 10 ^ rounds := by positivity
  have hle := abs_sub_iterate_roundTenth_le c rounds
  linarith

/-- Only the last of many roundings can go wrong, and only by a tie that is none. -/
theorem isNearestEven_iterate_iff (c : ℤ) (rounds : Nat) :
    IsNearestEven (c / 10 ^ (rounds + 1)) (roundTenth^[rounds + 1] c)
      ↔ ¬ BreaksFalseTie (c / 10 ^ rounds) (roundTenth^[rounds] c) := by
  have hnear := abs_sub_iterate_roundTenth_lt c rounds
  rw [Function.iterate_succ_apply', pow_succ, ← div_div]
  exact isNearestEven_roundTenth_iff (by linarith)

/-! ## Dividing a decimal -/

/-- A step down rounds once all places are used up. -/
theorem overTen_of_not_lt (h : ¬ d.scale < 28) :
    d.overTen.coefficient = roundTenth d.coefficient ∧ d.overTen.scale = 28 := by
  rw [overTen, dif_neg h]
  exact ⟨rfl, le_antisymm d.scale_le (not_lt.1 h)⟩

/-- Steps down use up the places first, and round from then on. -/
theorem scaleDown_spec (steps : Nat) (d : Decimal) :
    (scaleDown steps d).coefficient = roundTenth^[d.scale + steps - 28] d.coefficient ∧
      (scaleDown steps d).scale = min (d.scale + steps) 28 := by
  induction steps generalizing d with
  | zero =>
    have hscale := d.scale_le
    rw [Nat.add_zero, Nat.sub_eq_zero_of_le hscale, Nat.min_eq_left hscale]
    exact ⟨rfl, rfl⟩
  | succ steps ih =>
    obtain ⟨hcoeff, hscale⟩ := ih d.overTen
    rw [scaleDown, hcoeff, hscale]
    by_cases hroom : d.scale < 28
    · have hplace := (overTen_of_lt hroom).2
      have hsame : d.overTen.coefficient = d.coefficient := by rw [overTen, dif_pos hroom]
      rw [hplace, hsame, show d.scale + (steps + 1) = d.scale + 1 + steps by omega]
      exact ⟨rfl, rfl⟩
    · have h28 : d.scale = 28 := le_antisymm d.scale_le (not_lt.1 hroom)
      obtain ⟨hround, hfull⟩ := overTen_of_not_lt hroom
      rw [hround, hfull, h28, Nat.add_sub_cancel_left, Nat.add_sub_cancel_left,
        Function.iterate_succ_apply]
      exact ⟨rfl, by omega⟩

/-- The exact number and the result, both in units of the last place, if there are roundings. -/
theorem scaleDown_units (h : v.scale + steps = 28 + rounds) :
    v.value / 10 ^ steps * 10 ^ 28 = v.coefficient / 10 ^ rounds ∧
      (scaleDown steps v).value = (roundTenth^[rounds] v.coefficient : ℤ) / 10 ^ 28 := by
  obtain ⟨hcoeff, hscale⟩ := scaleDown_spec steps v
  rw [h, Nat.add_sub_cancel_left] at hcoeff
  rw [h, Nat.min_eq_right (Nat.le_add_right 28 rounds)] at hscale
  constructor
  · have hpow : (10 : ℚ) ^ v.scale * 10 ^ steps = 10 ^ 28 * 10 ^ rounds := by
      rw [← pow_add, ← pow_add, h]
    rw [value, div_div, hpow]
    field_simp
  · rw [value, hcoeff, hscale]

/-- A decimal is the number that it stands for, rounded once. -/
theorem roundedOnce_value (d : Decimal) : RoundedOnce d.value d := by
  obtain ⟨n, hn⟩ := d.exists_units
  have hint : d.value * 10 ^ 28 = n := by
    rw [hn]
    field_simp
  refine ⟨n, ?_, hn⟩
  rw [hint]
  exact isNearestEven_of_abs_lt (by simp)

/-- **Only the last step can go wrong**: the result is the exact number rounded once, unless the
last step finds a tie that is none. -/
theorem roundedOnce_scaleDown_iff (v : Decimal) (steps : Nat) :
    RoundedOnce (v.value / 10 ^ steps) (scaleDown steps v)
      ↔ ¬ BreaksFalseTie (v.coefficient / 10 ^ (v.scale + steps - 29))
          (roundTenth^[v.scale + steps - 29] v.coefficient) := by
  by_cases hplaces : v.scale + steps ≤ 28
  · -- there are places for all steps, and nothing is rounded
    have hfalse : ¬ BreaksFalseTie v.coefficient v.coefficient := not_breaksFalseTie_self _
    have hexact := roundedOnce_value (scaleDown steps v)
    rw [value_scaleDown hplaces] at hexact
    rw [show v.scale + steps - 29 = 0 by omega, pow_zero, div_one, Function.iterate_zero_apply]
    simp only [hexact, hfalse, not_false_eq_true]
  · obtain ⟨rounds, hrounds⟩ : ∃ rounds, v.scale + steps = 28 + (rounds + 1) :=
      ⟨v.scale + steps - 29, by omega⟩
    obtain ⟨hexact, hresult⟩ := scaleDown_units hrounds
    rw [roundedOnce_iff hresult, hexact, show v.scale + steps - 29 = rounds by omega]
    exact isNearestEven_iterate_iff v.coefficient rounds

/-- All roundings together leave less than five ninths of a unit. -/
theorem abs_value_scaleDown_sub_lt (v : Decimal) (steps : Nat) :
    |(scaleDown steps v).value - v.value / 10 ^ steps| < 5 / 9 / 10 ^ 28 := by
  by_cases hplaces : v.scale + steps ≤ 28
  · rw [value_scaleDown hplaces, sub_self, abs_zero]
    positivity
  · obtain ⟨rounds, hrounds⟩ : ∃ rounds, v.scale + steps = 28 + rounds :=
      ⟨v.scale + steps - 28, by omega⟩
    obtain ⟨hexact, hresult⟩ := scaleDown_units hrounds
    have hunit : (scaleDown steps v).value - v.value / 10 ^ steps
        = -(v.coefficient / 10 ^ rounds - (roundTenth^[rounds] v.coefficient : ℤ)) / 10 ^ 28 := by
      rw [hresult, ← hexact]
      ring
    rw [hunit, abs_div, abs_neg, abs_of_pos (by norm_num : (0 : ℚ) < 10 ^ 28)]
    have hlt := abs_sub_iterate_roundTenth_lt v.coefficient rounds
    gcongr

/-! ## Negative powers of ten -/

theorem timesPowerOfTen_neg (v : Decimal) (steps : Nat) :
    v.timesPowerOfTen (-(steps : ℤ)) = some (scaleDown steps v).normalize := by
  cases steps <;> rfl

/-- A decimal as the result of a negative power of ten. -/
structure ScaledDown (v : Decimal) (steps : Nat) (d : Decimal) : Prop where
  lowest : d.Lowest
  near : |d.value - v.value * 10 ^ (-(steps : ℤ))| < 5 / 9 / 10 ^ 28
  /-- The exact number is rounded once, unless the last rounding finds a tie that is none. -/
  roundedOnce_iff : RoundedOnce (v.value * 10 ^ (-(steps : ℤ))) d
    ↔ ¬ BreaksFalseTie (v.coefficient / 10 ^ (v.scale + steps - 29))
        (roundTenth^[v.scale + steps - 29] v.coefficient)
  /-- One step without a place is rounded correctly. -/
  roundedOnce : v.scale + steps ≤ 29 → RoundedOnce (v.value * 10 ^ (-(steps : ℤ))) d
    ∧ |d.value - v.value * 10 ^ (-(steps : ℤ))| ≤ 1 / 2 / 10 ^ 28

/-- **What a negative power of ten gives**, for every decimal and every number of steps: a decimal
within five ninths of a unit in the last place, and exactly when it is the one that a single rounding
gives. -/
theorem exists_scaledDown (v : Decimal) (steps : Nat) :
    ∃ d, v.timesPowerOfTen (-(steps : ℤ)) = some d ∧ ScaledDown v steps d := by
  have hexact : v.value * 10 ^ (-(steps : ℤ)) = v.value / 10 ^ steps := by
    rw [zpow_neg, zpow_natCast, div_eq_mul_inv]
  -- the fewest places do not change the number
  have hvalue := value_normalize (scaleDown steps v)
  have hnear := abs_value_scaleDown_sub_lt v steps
  have hiff := roundedOnce_scaleDown_iff v steps
  rw [← hexact, ← hvalue] at hnear
  rw [← hexact, roundedOnce_congr hvalue.symm] at hiff
  refine ⟨_, timesPowerOfTen_neg v steps, lowest_normalize _, hnear, hiff, fun hone => ?_⟩
  rw [show v.scale + steps - 29 = 0 by omega, pow_zero, div_one,
    Function.iterate_zero_apply] at hiff
  have hround := hiff.2 (not_breaksFalseTie_self v.coefficient)
  exact ⟨hround, hround.abs_sub_le⟩

/-- `51` units of the last place. -/
def fiftyOneUnits : Decimal := ⟨51, 28, by decide, by decide⟩

/-- **Rounding twice is not rounding once**: a hundredth of 51 units becomes 5 units and then none,
where one unit is nearest. -/
theorem fiftyOneUnits_roundedTwice :
    fiftyOneUnits.timesPowerOfTen (-2) = some ⟨0, 0, by decide, by decide⟩ ∧
    RoundedOnce (fiftyOneUnits.value * 10 ^ (-2 : ℤ)) ⟨1, 28, by decide, by decide⟩ ∧
    ¬ ∀ (v : Decimal) (power : ℤ), power < 0 →
      ∃ d, v.timesPowerOfTen power = some d ∧ RoundedOnce (v.value * 10 ^ power) d := by
  have hzero : fiftyOneUnits.timesPowerOfTen (-2) = some ⟨0, 0, by decide, by decide⟩ := by
    decide +kernel
  have hunits : fiftyOneUnits.value * 10 ^ (-2 : ℤ) * 10 ^ 28 = 51 / 100 := by
    norm_num [fiftyOneUnits, value]
  refine ⟨hzero, ⟨1, ?_, by norm_num [value]⟩, fun hall => ?_⟩
  · rw [hunits]
    exact isNearestEven_of_abs_lt (by norm_num [abs_lt])
  · obtain ⟨d, hd, n, ⟨hnear, -⟩, hvalue⟩ := hall fiftyOneUnits (-2) (by decide)
    rw [hzero, Option.some.injEq] at hd
    subst hd
    have hn : n = 0 := by
      have hcast : (n : ℚ) = 0 := by
        rw [value_mk_zero] at hvalue
        field_simp at hvalue
        simpa using hvalue.symm
      exact_mod_cast hcast
    rw [hunits, hn] at hnear
    norm_num [abs_le] at hnear

end Decimal

end DomainAuction
