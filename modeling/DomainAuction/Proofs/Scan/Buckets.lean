import DomainAuction.Proofs.Positional
import DomainAuction.Scan.EndingAuctions
import Mathlib.Algebra.Order.Floor.Div

/-!
# Buckets — times that share their high-order bytes

A window on the high-order bytes of a time finds a whole bucket of times. The bucket around two
times that leaves out as few bytes as it can holds everything between the two: with equal
high-order bytes they have one sign, and within one sign times are ordered as their bytes are. How
many bytes that leaves out can also be told from the highest bit in which the two times differ.
-/

namespace DomainAuction

/-! ## How many bytes vary -/

/-- **The fewest bytes to leave out** before two byte strings of one length agree. -/
theorem varyingLowBytes_le_iff {as bs : Bytes} (hlen : as.length = bs.length) (count : Nat) :
    varyingLowBytes as bs ≤ count ↔ as.drop count = bs.drop count := by
  -- on the bytes from the least significant one, so the rest of the string is what agrees
  induction as generalizing bs count with
  | nil =>
    have hbs : bs = [] := by simpa [eq_comm] using hlen
    subst hbs
    simp [varyingLowBytes]
  | cons a as ih =>
    cases bs with
    | nil => simp at hlen
    | cons b bs =>
      have hlen' : as.length = bs.length := by simpa using hlen
      unfold varyingLowBytes
      by_cases hrest : as = bs
      · subst hrest
        by_cases hab : a = b
        · simp [hab]
        · cases count with
          | zero => simp [hab]
          | succ count => simp [hab]
      · rw [if_neg hrest]
        cases count with
        | zero => simp [hrest]
        | succ count => simp [ih hlen' count]

theorem drop_varyingLowBytes {as bs : Bytes} (hlen : as.length = bs.length) :
    as.drop (varyingLowBytes as bs) = bs.drop (varyingLowBytes as bs) :=
  (varyingLowBytes_le_iff hlen _).1 (Nat.le_refl _)

theorem varyingLowBytes_le {as bs : Bytes} (hlen : as.length = bs.length) :
    varyingLowBytes as bs ≤ as.length := by
  refine (varyingLowBytes_le_iff hlen _).2 ?_
  rw [List.drop_length, hlen, List.drop_length]

/-! ## The bytes of a time -/

@[simp] theorem length_timeBytes (t : Int64) : (timeBytes t).length = 8 :=
  length_littleEndian 8 _

theorem ofLittleEndian_timeBytes (t : Int64) :
    ofLittleEndian (timeBytes t) = t.toUInt64.toNat := by
  rw [timeBytes, ofLittleEndian_littleEndian]
  exact Nat.mod_eq_of_lt t.toUInt64.toNat_lt

/-- A time as a signed number, from its bytes as an unsigned one. -/
theorem toInt_eq_toUInt64 (t : Int64) :
    t.toInt = if t.toUInt64.toNat < 2 ^ 63 then (t.toUInt64.toNat : Int)
      else (t.toUInt64.toNat : Int) - 2 ^ 64 := by
  have h : t.toInt = if 2 * t.toUInt64.toNat < 2 ^ 64 then (t.toUInt64.toNat : Int)
      else (t.toUInt64.toNat : Int) - ((2 ^ 64 : Nat) : Int) :=
    BitVec.toInt_eq_toNat_cond t.toBitVec
  rw [h]
  split <;> split <;> omega

/-- How many bytes vary between two times. -/
def varyingTimeBytes (now last : Int64) : Nat :=
  varyingLowBytes (timeBytes now) (timeBytes last)

theorem varyingTimeBytes_le (now last : Int64) : varyingTimeBytes now last ≤ 8 :=
  (varyingLowBytes_le (by simp)).trans_eq (length_timeBytes now)

/-- A span across the sign shares no byte, however short it is. -/
example : varyingTimeBytes (-1) 0 = 8 := by decide +kernel

/-! ## The highest bit that differs -/

/-- The bytes up to the highest bit in which two times differ. -/
def differingBytes (now last : Int64) : Nat :=
  let differing := (now ^^^ last).toUInt64
  if differing = 0 then 0 else (64 - differing.toBitVec.clz.toNat) ⌈/⌉ 8

/-- All bits of a word that are not among its lowest are zero if so many lead it. -/
theorem toNat_lt_two_pow_iff {x : BitVec 64} {count : Nat} :
    x.toNat < 2 ^ count ↔ 64 - x.clz.toNat ≤ count := by
  constructor
  · intro hlt
    by_cases hx : x = 0#64
    · simp [hx]
    · have hhighest := BitVec.two_pow_sub_clz_le_toNat_of_ne_zero (by decide) hx
      have hpow := (Nat.pow_lt_pow_iff_right (by decide)).1 (Nat.lt_of_le_of_lt hhighest hlt)
      omega
  · intro hle
    exact Nat.lt_of_lt_of_le BitVec.toNat_lt_two_pow_sub_clz (Nat.pow_le_pow_right (by decide) hle)

theorem differingBytes_le_iff (now last : Int64) (count : Nat) : differingBytes now last ≤ count ↔
    now.toUInt64.toNat / 256 ^ count = last.toUInt64.toNat / 256 ^ count := by
  have hxor : (now ^^^ last).toUInt64.toNat = now.toUInt64.toNat ^^^ last.toUInt64.toNat := by
    rw [Int64.toUInt64_xor, UInt64.toNat_xor]
  have hpow : 256 ^ count = 2 ^ (8 * count) := by rw [Nat.pow_mul]
  have hcount : differingBytes now last ≤ count
      ↔ (now ^^^ last).toUInt64.toNat < 2 ^ (8 * count) := by
    simp only [differingBytes]
    split
    · next hzero => simp [hzero]
    · rw [ceilDiv_le_iff_le_mul (by decide), ← UInt64.toNat_toBitVec, toNat_lt_two_pow_iff]
  rw [hcount, hxor, ← Nat.div_eq_zero_iff_lt (Nat.two_pow_pos _), hpow, ← Nat.shiftRight_eq_div_pow,
    ← Nat.shiftRight_eq_div_pow, ← Nat.shiftRight_eq_div_pow, Nat.shiftRight_xor_distrib,
    Nat.xor_eq_zero_iff]

/-- **The bytes that vary are counted by the highest bit that differs.** -/
theorem varyingTimeBytes_eq_differingBytes (now last : Int64) :
    varyingTimeBytes now last = differingBytes now last := by
  refine eq_of_forall_ge_iff fun count => ?_
  rw [differingBytes_le_iff, varyingTimeBytes, varyingLowBytes_le_iff (by simp),
    ← ofLittleEndian_timeBytes, ← ofLittleEndian_timeBytes, ← ofLittleEndian_drop,
    ← ofLittleEndian_drop]
  constructor
  · exact congrArg ofLittleEndian
  · exact ofLittleEndian_inj (by simp)
/-! ## Buckets -/

theorem endTimeWindow_eq (presence : Nat) (now last : Int64) :
    endTimeWindow presence now last =
      if varyingTimeBytes now last = 8 then none
      else some ⟨presence + 1 + varyingTimeBytes now last,
        (timeBytes now).drop (varyingTimeBytes now last)⟩ := rfl

/-- A time shares the bytes that two times share. -/
def InBucket (now last t : Int64) : Prop :=
  (timeBytes t).drop (varyingTimeBytes now last) = (timeBytes now).drop (varyingTimeBytes now last)

/-- Times with an equal high-order byte have one sign. -/
theorem toUInt64_lt_iff {s t : Int64} {count : Nat} (hcount : count < 8)
    (h : (timeBytes s).drop count = (timeBytes t).drop count) :
    s.toUInt64.toNat < 2 ^ 63 ↔ t.toUInt64.toNat < 2 ^ 63 := by
  have hdiv := congrArg ofLittleEndian h
  rw [ofLittleEndian_drop, ofLittleEndian_drop, ofLittleEndian_timeBytes,
    ofLittleEndian_timeBytes] at hdiv
  have hpow : 256 ^ count * (256 ^ (7 - count) * 128) = 2 ^ 63 := by
    rw [← Nat.mul_assoc, ← Nat.pow_add, show count + (7 - count) = 7 by omega]
    decide
  have hsplit : ∀ n : Nat, n / 2 ^ 63 = n / 256 ^ count / (256 ^ (7 - count) * 128) := by
    intro n
    rw [← hpow, Nat.div_div_eq_div_mul]
  have hsign : s.toUInt64.toNat / 2 ^ 63 = t.toUInt64.toNat / 2 ^ 63 := by
    rw [hsplit, hsplit, hdiv]
  omega

/-- **Everything between two times is in their bucket.** -/
theorem inBucket_of_between {now t last : Int64} (hn : now ≤ t) (hl : t ≤ last) :
    InBucket now last t := by
  unfold InBucket
  have hends : (timeBytes now).drop (varyingTimeBytes now last)
      = (timeBytes last).drop (varyingTimeBytes now last) := drop_varyingLowBytes (by simp)
  rcases Nat.lt_or_eq_of_le (varyingTimeBytes_le now last) with hlt | heq
  · -- one sign, so the unsigned numbers are in the order of the times
    have hsign := toUInt64_lt_iff hlt hends
    rw [Int64.le_iff_toInt_le, toInt_eq_toUInt64, toInt_eq_toUInt64] at hn hl
    have hnow := now.toUInt64.toNat_lt
    have ht := t.toUInt64.toNat_lt
    have hlast := last.toUInt64.toNat_lt
    have hle : now.toUInt64.toNat ≤ t.toUInt64.toNat
        ∧ t.toUInt64.toNat ≤ last.toUInt64.toNat := by
      split at hn <;> split at hn <;> split at hl <;> omega
    have hdiv := congrArg ofLittleEndian hends
    refine ofLittleEndian_inj (by simp) ?_
    rw [ofLittleEndian_drop, ofLittleEndian_drop, ofLittleEndian_timeBytes,
      ofLittleEndian_timeBytes] at hdiv ⊢
    have hlow := Nat.div_le_div_right (c := 256 ^ varyingTimeBytes now last) hle.1
    have hhigh := Nat.div_le_div_right (c := 256 ^ varyingTimeBytes now last) hle.2
    -- the quotients of the ends are equal, and that of the time is between them
    omega
  · -- no byte is shared, and the bucket holds every time
    rw [heq, List.drop_of_length_le (by simp), List.drop_of_length_le (by simp)]

end DomainAuction
