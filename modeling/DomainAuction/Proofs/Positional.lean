import DomainAuction.Bytes.Endian
import DomainAuction.Text.Radix
import Mathlib

/-!
# Positional — what digits and bytes say about their number

A byte string of some width spells a number below the power of 256 with that exponent, and reading
back what was written gives the number modulo this power. Digits in any base give their number
back when there is room for all of them.
-/

namespace DomainAuction

/-! ## Bytes -/

theorem ofLittleEndian_lt (bytes : Bytes) : ofLittleEndian bytes < 256 ^ bytes.length := by
  induction bytes with
  | nil => decide
  | cons b bs ih =>
    have hb := b.toNat_lt
    simp only [ofLittleEndian, List.length_cons, Nat.pow_succ]
    omega

theorem ofLittleEndian_littleEndian (width n : Nat) :
    ofLittleEndian (littleEndian width n) = n % 256 ^ width := by
  induction width generalizing n with
  | zero => simp [littleEndian, ofLittleEndian, Nat.mod_one]
  | succ width ih =>
    have hb : (UInt8.ofNat n).toNat = n % 256 := by simp
    rw [littleEndian, ofLittleEndian, ih, hb, Nat.pow_succ, Nat.mul_comm (256 ^ width) 256,
      Nat.mod_mul]

/-- Byte strings of one length spell different numbers. -/
theorem ofLittleEndian_inj {as bs : Bytes} (hlen : as.length = bs.length)
    (h : ofLittleEndian as = ofLittleEndian bs) : as = bs := by
  rw [← littleEndian_ofLittleEndian as, ← littleEndian_ofLittleEndian bs, hlen, h]

/-- Leaving out low-order bytes divides. -/
theorem ofLittleEndian_drop (count : Nat) (bytes : Bytes) :
    ofLittleEndian (bytes.drop count) = ofLittleEndian bytes / 256 ^ count := by
  induction count generalizing bytes with
  | zero => simp
  | succ count ih =>
    cases bytes with
    | nil => simp [ofLittleEndian]
    | cons b bs =>
      have hb := b.toNat_lt
      have hhigh : (b.toNat + 256 * ofLittleEndian bs) / 256 = ofLittleEndian bs := by omega
      rw [List.drop_succ_cons, ih, ofLittleEndian, Nat.pow_succ, Nat.mul_comm (256 ^ count),
        ← Nat.div_div_eq_div_mul, hhigh]

/-! ## Digits -/

theorem ofDigits_digits {base count n : Nat} (h : n < base ^ count) :
    ofDigits base (digits base count n) = n := by
  induction count generalizing n with
  | zero =>
    have hn : n = 0 := by simpa using h
    subst hn
    rfl
  | succ count ih =>
    unfold digits
    split
    · next hn => exact hn.symm
    · have hq : n / base < base ^ count := by
        apply Nat.div_lt_of_lt_mul
        rwa [Nat.pow_succ, Nat.mul_comm] at h
      rw [ofDigits, ih hq, Nat.mod_add_div]

end DomainAuction
