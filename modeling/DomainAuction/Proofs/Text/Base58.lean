import DomainAuction.Proofs.Positional
import DomainAuction.Text.Base58

/-!
# Base58 — byte strings of one length are spelled differently

The digits of a written byte string are those of its number, behind one digit of value zero for each
leading zero byte. Zeros in front change no number, so the text tells the number, and with the length
the number tells the bytes.
-/

namespace DomainAuction

/-! ## Digits -/

theorem lt_of_mem_digits {base count n d : Nat} (hbase : 0 < base) (h : d ∈ digits base count n) :
    d < base := by
  induction count generalizing n with
  | zero => cases h
  | succ count ih =>
    unfold digits at h
    split at h
    · cases h
    · rcases List.mem_cons.1 h with rfl | h
      · exact Nat.mod_lt n hbase
      · exact ih h

/-- Leading zeros, which come last here, change no number. -/
theorem ofDigits_append_zeros (base count : Nat) (ds : List Nat) :
    ofDigits base (ds ++ List.replicate count 0) = ofDigits base ds := by
  induction ds with
  | nil =>
    induction count with
    | zero => rfl
    | succ count ih => simpa [List.replicate_succ, ofDigits] using Or.inr ih
  | cons d ds ih => simp only [List.cons_append, ofDigits, ih]

namespace Base58

theorem digitValue?_digitChar {d : Nat} (h : d < 58) : digitValue? (digitChar d) = some d := by
  have hall : ∀ e < 58, digitValue? (digitChar e) = some e := by decide
  exact hall d h

/-- The number that a text spells, where a character outside the alphabet counts as zero. -/
def number (text : String) : Nat :=
  ofDigits 58 (text.toList.reverse.map fun c => (digitValue? c).getD 0)

theorem number_encode (bytes : Bytes) : number (encode bytes) = ofBigEndian bytes := by
  have hfits : ofBigEndian bytes < 58 ^ (2 * bytes.length) := by
    have hlt := ofLittleEndian_lt bytes.reverse
    rw [List.length_reverse] at hlt
    calc ofBigEndian bytes < 256 ^ bytes.length := hlt
      _ ≤ (58 ^ 2) ^ bytes.length := Nat.pow_le_pow_left (by decide) _
      _ = 58 ^ (2 * bytes.length) := (Nat.pow_mul ..).symm
  have hdigits : (digits 58 (2 * bytes.length) (ofBigEndian bytes)).map
      (fun d => (digitValue? (digitChar d)).getD 0)
        = digits 58 (2 * bytes.length) (ofBigEndian bytes) := by
    refine (List.map_congr_left fun d hd => ?_).trans (List.map_id _)
    rw [digitValue?_digitChar (lt_of_mem_digits (by decide) hd)]
    rfl
  have hone : (digitValue? '1').getD 0 = 0 := by decide
  simp only [number, encode, String.toList_ofList, List.reverse_append, List.map_append,
    List.map_reverse, List.reverse_reverse, List.map_map, Function.comp_def, hdigits, hone,
    List.map_const', List.reverse_replicate, List.map_replicate, ofDigits_append_zeros]
  exact ofDigits_digits hfits

end Base58

/-- Two addresses with the same written form are the same. -/
theorem Octets.toBase58_inj {n : Nat} {a b : Octets n} (h : a.toBase58 = b.toBase58) : a = b := by
  apply toNat_inj
  rw [toNat, toNat, ← Base58.number_encode, ← Base58.number_encode]
  exact congrArg Base58.number h

end DomainAuction
