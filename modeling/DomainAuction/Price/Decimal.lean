/-!
# Decimal — numbers with up to 28 decimal places

A decimal is a coefficient below `2⁹⁶` and a number of places. Multiplying by ten takes a place
away while there is one, and fails when a whole number outgrows the coefficient. Dividing by ten
adds a place while there is room, and after that rounds half to even, once for every division.
-/

namespace DomainAuction

/-- The number `coefficient / 10 ^ scale`. -/
structure Decimal where
  coefficient : Int
  scale : Nat
  coefficient_lt : coefficient.natAbs < 79228162514264337593543950336
  scale_le : scale ≤ 28
  deriving DecidableEq

namespace Decimal

/-- The decimal with a coefficient and a scale that fit. -/
def ofScaled? (coefficient : Int) (scale : Nat) : Option Decimal :=
  if h : coefficient.natAbs < 79228162514264337593543950336 ∧ scale ≤ 28 then some ⟨coefficient, scale, h.1, h.2⟩
  else none

def ofInt64 (n : Int64) : Decimal :=
  ⟨n.toInt, 0, by have := n.toInt_lt; have := n.le_toInt; omega, by omega⟩

def ofUInt64 (n : UInt64) : Decimal :=
  ⟨n.toNat, 0, by have := n.toNat_lt; omega, by omega⟩

/-! ## Steps by ten -/

/-- Ten times the number, unless it does not fit. -/
def timesTen (d : Decimal) : Option Decimal :=
  match d with
  | ⟨c, s + 1, hc, hs⟩ => some ⟨c, s, hc, by omega⟩
  | ⟨c, 0, _, _⟩ => ofScaled? (10 * c) 0

/-- A tenth of an integer, rounded to the nearest integer, and to the even one of two. -/
def roundTenth (c : Int) : Int :=
  if c % 10 > 5 ∨ (c % 10 = 5 ∧ c / 10 % 2 = 1) then c / 10 + 1 else c / 10

theorem natAbs_roundTenth_le (c : Int) : (roundTenth c).natAbs ≤ c.natAbs := by
  unfold roundTenth
  split <;> omega

/-- A tenth of the number, rounded if there is no place left. -/
def overTen (d : Decimal) : Decimal :=
  if h : d.scale < 28 then ⟨d.coefficient, d.scale + 1, d.coefficient_lt, by omega⟩
  else ⟨roundTenth d.coefficient, d.scale,
    Nat.lt_of_le_of_lt (natAbs_roundTenth_le _) d.coefficient_lt, d.scale_le⟩

/-! ## Powers of ten -/

/-- `steps` multiplications by ten, as long as the number fits. -/
def scaleUp : (steps : Nat) → Decimal → Option Decimal
  | 0, d => some d
  | steps + 1, d => d.timesTen.bind (scaleUp steps)

/-- `steps` divisions by ten. -/
def scaleDown : (steps : Nat) → Decimal → Decimal
  | 0, d => d
  | steps + 1, d => scaleDown steps d.overTen

/-- The coefficient and the scale without trailing zeros. -/
def strip : (scale : Nat) → Int → Int × Nat
  | 0, c => (c, 0)
  | scale + 1, c => if c % 10 = 0 then strip scale (c / 10) else (c, scale + 1)

theorem natAbs_strip_le (scale : Nat) (c : Int) : (strip scale c).1.natAbs ≤ c.natAbs := by
  induction scale generalizing c with
  | zero => simp [strip]
  | succ scale ih =>
    unfold strip
    split
    · have := ih (c / 10)
      omega
    · exact Nat.le_refl _

theorem strip_scale_le (scale : Nat) (c : Int) : (strip scale c).2 ≤ scale := by
  induction scale generalizing c with
  | zero => simp [strip]
  | succ scale ih =>
    unfold strip
    split
    · exact Nat.le_succ_of_le (ih (c / 10))
    · exact Nat.le_refl _

/-- The same number with the fewest places. -/
def normalize (d : Decimal) : Decimal :=
  ⟨(strip d.scale d.coefficient).1, (strip d.scale d.coefficient).2,
    Nat.lt_of_le_of_lt (natAbs_strip_le _ _) d.coefficient_lt,
    Nat.le_trans (strip_scale_le _ _) d.scale_le⟩

/-- The number times a power of ten, with the fewest places, unless it does not fit. -/
def timesPowerOfTen (d : Decimal) : (power : Int) → Option Decimal
  | .ofNat steps => (scaleUp steps d).map normalize
  | .negSucc steps => some (scaleDown (steps + 1) d).normalize

/-! ## Text -/

/-- Plain notation: a sign if negative, at least one digit, and as many places as the scale. -/
def text (d : Decimal) : String :=
  let digits := (Nat.toDigits 10 d.coefficient.natAbs).leftpad (d.scale + 1) '0'
  let whole := digits.take (digits.length - d.scale)
  let places := digits.drop (digits.length - d.scale)
  let point := if d.scale = 0 then [] else '.' :: places
  String.ofList ((if d.coefficient < 0 then ['-'] else []) ++ whole ++ point)

end Decimal

end DomainAuction
