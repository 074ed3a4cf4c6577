import DomainAuction.Proofs.Price.Rounding

/-!
# RoundTrip — a power of ten up and the same power down

Every decimal is a whole number of units in the last of its 28 places. Dividing by ten rounds only
where it would leave these units, so a number that stays a whole number of them after many divisions
is divided exactly, also when no places are left. What was multiplied by a power of ten before is
such a number: on the way back, the digits that are dropped are the zeros that were added.
-/

namespace DomainAuction

namespace Decimal

variable {c : ℤ} {x : ℚ} {d v : Decimal} {steps : Nat}

/-- Some decimal stands for the number. -/
def Representable (x : ℚ) : Prop :=
  ∃ (c : ℤ) (scale : Nat), |c| < 2 ^ 96 ∧ scale ≤ 28 ∧ x = c / 10 ^ scale

theorem representable_iff : Representable x ↔ ∃ d : Decimal, d.value = x := by
  have hbound : ∀ c : ℤ, |c| < 2 ^ 96 ↔ c.natAbs < 79228162514264337593543950336 := by
    intro c
    rw [natAbs_lt_iff]
    exact_mod_cast Iff.rfl
  constructor
  · rintro ⟨c, scale, hc, hscale, rfl⟩
    exact ⟨⟨c, scale, (hbound c).1 hc, hscale⟩, rfl⟩
  · rintro ⟨d, rfl⟩
    exact ⟨d.coefficient, d.scale, (hbound _).2 d.coefficient_lt, d.scale_le, rfl⟩

/-! ## Whole units -/

/-- A whole number of units in the last place. -/
def InUnits (x : ℚ) : Prop := ∃ n : ℤ, x = n / 10 ^ 28

theorem inUnits_value (d : Decimal) : InUnits d.value := d.exists_units

theorem InUnits.mul_pow (h : InUnits x) (steps : Nat) : InUnits (x * 10 ^ steps) := by
  obtain ⟨n, rfl⟩ := h
  refine ⟨n * 10 ^ steps, ?_⟩
  push_cast
  ring

/-- What is divided by many tens in whole units is divided by the first ten in whole units. -/
theorem InUnits.of_div_pow_succ (h : InUnits (x / 10 ^ (steps + 1))) : InUnits (x / 10) := by
  have hsplit : x / 10 = x / 10 ^ (steps + 1) * 10 ^ steps := by
    rw [pow_succ]
    field_simp
  rw [hsplit]
  exact h.mul_pow steps

/-! ## Dividing exactly -/

theorem roundTenth_of_dvd (h : 10 ∣ c) : roundTenth c = c / 10 := by
  have hdigit : c % 10 = 0 := Int.emod_eq_zero_of_dvd h
  exact if_neg (by omega)

/-- **A step down is exact if the tenth is in whole units.** -/
theorem value_overTen_of_inUnits (h : InUnits (d.value / 10)) : d.overTen.value = d.value / 10 := by
  by_cases hroom : d.scale < 28
  · exact (overTen_of_lt hroom).1
  · -- all places are used up, so the last digit has to be a zero
    have h28 : d.scale = 28 := le_antisymm d.scale_le (not_lt.1 hroom)
    obtain ⟨hround, hfull⟩ := overTen_of_not_lt hroom
    obtain ⟨n, hn⟩ := h
    have hcoeff : d.coefficient = 10 * n := by
      rw [value, h28] at hn
      field_simp at hn
      exact_mod_cast hn
    have hdown : d.overTen.coefficient = n := by
      rw [hround, hcoeff, roundTenth_of_dvd (dvd_mul_right 10 n),
        Int.mul_ediv_cancel_left n (by norm_num)]
    rw [hn, value, hdown, hfull]

/-- **Steps down are exact if and only if the result is in whole units**, whatever the scale. -/
theorem value_scaleDown_eq_iff :
    (scaleDown steps d).value = d.value / 10 ^ steps ↔ InUnits (d.value / 10 ^ steps) := by
  constructor
  · intro h
    rw [← h]
    exact inUnits_value _
  · intro h
    induction steps generalizing d with
    | zero => simp [scaleDown]
    | succ steps ih =>
      have hstep : d.overTen.value = d.value / 10 := value_overTen_of_inUnits h.of_div_pow_succ
      have hrest : d.overTen.value / 10 ^ steps = d.value / 10 ^ (steps + 1) := by
        rw [hstep, div_div, ← pow_succ']
      rw [scaleDown, ih (hrest ▸ h), hrest]

/-! ## Up and back -/

/-- Only numbers that have no room are refused. -/
theorem timesPowerOfTen_up_cases (v : Decimal) (steps : Nat) :
    (∃ d, v.timesPowerOfTen steps = some d ∧ d.value = v.value * 10 ^ steps ∧ d.Lowest) ∨
      (v.timesPowerOfTen steps = none ∧ ¬ Representable (v.value * 10 ^ steps)) := by
  have hscale : (v.scale : ℤ) ≤ 28 + (steps : ℤ) := by
    have := v.scale_le
    omega
  rcases timesPowerOfTen_cases hscale with ⟨d, hd, hvalue, hlow, -⟩ | ⟨hnone, hbig⟩
  · exact .inl ⟨d, hd, by rw [hvalue, zpow_natCast], hlow⟩
  · refine .inr ⟨hnone, fun hrep => ?_⟩
    obtain ⟨x, hx⟩ := representable_iff.1 hrep
    rw [zpow_natCast, ← hx] at hbig
    exact absurd x.abs_value_lt (not_lt.2 hbig)

/-- **Dividing undoes multiplying**: the way back meets no digit that it has to round away. -/
theorem timesPowerOfTen_back (h : d.value = v.value * 10 ^ steps) :
    d.timesPowerOfTen (-(steps : ℤ)) = some v.normalize := by
  have hback : d.value / 10 ^ steps = v.value := by
    rw [h]
    field_simp
  have hexact : (scaleDown steps d).value = v.value := by
    rw [value_scaleDown_eq_iff.2 (hback ▸ inUnits_value v), hback]
  have hsame : (scaleDown steps d).normalize = v.normalize := by
    refine (lowest_normalize _).eq_of_value_eq (lowest_normalize _) ?_
    rw [value_normalize, value_normalize, hexact]
  rw [timesPowerOfTen_neg, hsame]

/-- **A power of ten is exact or refused, and can be undone.** Nothing comes out exactly if no
decimal stands for the product. Otherwise the product comes out in lowest scale, and the same power
down leads back to the number in lowest scale, however often the scale is used up on the way. -/
theorem timesPowerOfTen_up_and_back (v : Decimal) (steps : Nat) :
    (v.timesPowerOfTen steps = none ↔ ¬ Representable (v.value * 10 ^ steps)) ∧
    (Representable (v.value * 10 ^ steps) →
      ∃ d, v.timesPowerOfTen steps = some d ∧ d.value = v.value * 10 ^ steps ∧ d.Lowest
        ∧ d.timesPowerOfTen (-(steps : ℤ)) = some v.normalize) := by
  rcases v.timesPowerOfTen_up_cases steps with ⟨d, hd, hvalue, hlow⟩ | ⟨hnone, hnot⟩
  · have hrep : Representable (v.value * 10 ^ steps) := representable_iff.2 ⟨d, hvalue⟩
    refine ⟨?_, fun _ => ⟨d, hd, hvalue, hlow, timesPowerOfTen_back hvalue⟩⟩
    simp [hd, hrep]
  · exact ⟨iff_of_true hnone hnot, fun hrep => absurd hrep hnot⟩

/-- `51` units of the last place go up by 54 tens, to a whole number of 28 digits, and all the way
back. The last 26 steps find no place left. -/
theorem fiftyOneUnits_up_and_back :
    Representable (fiftyOneUnits.value * 10 ^ 54) ∧
    ∃ d, fiftyOneUnits.timesPowerOfTen 54 = some d ∧ d.value = 51 * 10 ^ 26 ∧ d.Lowest
      ∧ d.timesPowerOfTen (-54) = some fiftyOneUnits := by
  have hvalue : fiftyOneUnits.value * 10 ^ 54 = 51 * 10 ^ 26 := by norm_num [fiftyOneUnits, value]
  have hrep : Representable (fiftyOneUnits.value * 10 ^ 54) :=
    ⟨51 * 10 ^ 26, 0, by norm_num, by norm_num, by rw [hvalue]; norm_num⟩
  have hlowest : fiftyOneUnits.normalize = fiftyOneUnits := by decide +kernel
  obtain ⟨d, hd, hdvalue, hlow, hback⟩ := (timesPowerOfTen_up_and_back fiftyOneUnits 54).2 hrep
  rw [hlowest] at hback
  exact ⟨hrep, d, hd, hdvalue.trans hvalue, hlow, hback⟩

end Decimal

end DomainAuction
