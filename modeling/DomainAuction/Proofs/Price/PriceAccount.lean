import DomainAuction.Price.Oracle
import DomainAuction.Proofs.Positional
import DomainAuction.Proofs.Price.Scaling

/-!
# PriceAccount — from the bytes of a price account to its numbers

Any byte string can be handed over as a price account. Five checks decide whether it is one, and
the first that fails is the error. What passes them holds two numbers on one scale, the price and
its confidence, and each comes out as the decimal that it is: nothing is rounded, because the
exponents that are accepted never need more than the 28 places there are. Only a number of `2 ^ 96`
or more comes out as nothing.
-/

namespace DomainAuction

namespace OraclePrice

variable {data : Bytes} {mantissa : Int}

/-! ## Numbers in the bytes -/

/-- The number of `width` bytes at an offset in two's complement, least significant byte first. -/
def signedAt (data : Bytes) (offset width : Nat) : Int :=
  (numberAt data offset width : Int).bmod (256 ^ width)

theorem numberAt_lt (data : Bytes) (offset width : Nat) :
    numberAt data offset width < 256 ^ width := by
  have hlen : ((data.drop offset).take width).length ≤ width := List.length_take_le ..
  exact lt_of_lt_of_le (ofLittleEndian_lt _) (Nat.pow_le_pow_right (by norm_num) hlen)

theorem exponentOf_eq_signedAt (data : Bytes) : exponentOf data = signedAt data 20 4 :=
  Int32.toInt_ofInt

/-! ## The checks -/

/-- The checks on a price account in their order, each with the error that it fails with. -/
def checks (data : Bytes) : List (Bool × OracleError) :=
  [(240 ≤ data.length, .insufficientByteLength),
   (numberAt data 0 4 = 0xa1b2c3d4, .invalidMagic),
   (numberAt data 4 4 = 2, .unsupportedVersion),
   (numberAt data 8 4 = 3, .notAPriceAccount),
   (-28 ≤ signedAt data 20 4 ∧ signedAt data 20 4 ≤ 28, .exponentOutOfRange)]

/-- The error of the first check that fails. -/
def firstFailed (data : Bytes) : Option OracleError :=
  ((checks data).find? fun check => !check.1).map Prod.snd

/-- A byte string that passes all checks. -/
structure IsPriceAccount (data : Bytes) : Prop where
  length : 240 ≤ data.length
  magic : numberAt data 0 4 = 0xa1b2c3d4
  version : numberAt data 4 4 = 2
  accountType : numberAt data 8 4 = 3
  exponent_ge : -28 ≤ signedAt data 20 4
  exponent_le : signedAt data 20 4 ≤ 28

theorem firstFailed_eq_none_iff : firstFailed data = none ↔ IsPriceAccount data := by
  simp only [firstFailed, Option.map_eq_none_iff, List.find?_eq_none, checks, List.mem_cons,
    List.not_mem_nil, or_false, forall_eq_or_imp, forall_eq, Bool.not_eq_true,
    Bool.not_eq_false', decide_eq_true_eq]
  constructor
  · rintro ⟨hlen, hmagic, hversion, htype, hge, hle⟩
    exact ⟨hlen, hmagic, hversion, htype, hge, hle⟩
  · rintro ⟨hlen, hmagic, hversion, htype, hge, hle⟩
    exact ⟨hlen, hmagic, hversion, htype, hge, hle⟩

/-- The checks as one nested condition. -/
theorem decode_eq_ite (data : Bytes) :
    decode data =
      if data.length < 240 then .error .insufficientByteLength
      else if numberAt data 0 4 = 0xa1b2c3d4 then
        if numberAt data 4 4 = 2 then
          if numberAt data 8 4 = 3 then
            if -28 ≤ exponentOf data ∧ exponentOf data ≤ 28 then
              .ok {
                exponent := exponentOf data
                price := .ofInt (numberAt data 208 8)
                confidence := .ofNat (numberAt data 216 8)
                status := .ofCode (numberAt data 224 4)
                publishSlot := .ofNat (numberAt data 232 8) }
            else .error .exponentOutOfRange
          else .error .notAPriceAccount
        else .error .unsupportedVersion
      else .error .invalidMagic := rfl

/-- **Decoding makes the checks in their order**, and then reads the numbers off. -/
theorem decode_cases (data : Bytes) :
    (∃ e, firstFailed data = some e ∧ decode data = .error e) ∨
      (firstFailed data = none ∧ ∃ p, decode data = .ok p ∧ p.exponent = signedAt data 20 4
        ∧ p.price.toInt = signedAt data 208 8 ∧ p.confidence.toNat = numberAt data 216 8) := by
  have hexponent := exponentOf_eq_signedAt data
  rw [decode_eq_ite]
  split_ifs with hlen hmagic hversion htype hexp
  · exact .inl ⟨_, by simp [firstFailed, checks, hlen], rfl⟩
  · refine .inr ⟨?_, _, rfl, hexponent, Int64.toInt_ofInt, ?_⟩
    · rw [hexponent] at hexp
      exact firstFailed_eq_none_iff.2 ⟨not_lt.1 hlen, hmagic, hversion, htype, hexp.1, hexp.2⟩
    · exact UInt64.toNat_ofNat_of_lt' (numberAt_lt data 216 8)
  · rw [hexponent] at hexp
    exact .inl ⟨_, by simp [firstFailed, checks, hlen, hmagic, hversion, htype, hexp], rfl⟩
  · exact .inl ⟨_, by simp [firstFailed, checks, hlen, hmagic, hversion, htype], rfl⟩
  · exact .inl ⟨_, by simp [firstFailed, checks, hlen, hmagic, hversion], rfl⟩
  · exact .inl ⟨_, by simp [firstFailed, checks, hlen, hmagic], rfl⟩

/-! ## The numbers -/

/-- What becomes of a number that a byte string holds on the scale of a price account: the error of
the first check that fails, nothing if the number has no room, or the number itself with the fewest
places. -/
structure Normalised (data : Bytes) (mantissa : Int)
    (outcome : Except OracleError (Option Decimal)) : Prop where
  refused : ∀ e, outcome = .error e ↔ firstFailed data = some e
  noRoom : outcome = .ok none
    ↔ IsPriceAccount data ∧ 2 ^ 96 ≤ |(mantissa : ℚ)| * 10 ^ signedAt data 20 4
  found : (∃ d, outcome = .ok (some d))
    ↔ IsPriceAccount data ∧ |(mantissa : ℚ)| * 10 ^ signedAt data 20 4 < 2 ^ 96
  exact : ∀ d, outcome = .ok (some d) →
    d.value = mantissa * 10 ^ signedAt data 20 4 ∧ d.Lowest ∧ (mantissa = 0 → d.scale = 0)

theorem Normalised.of_firstFailed {e : OracleError} (h : firstFailed data = some e) :
    Normalised data mantissa (.error e) := by
  have hnot : ¬ IsPriceAccount data := by
    rw [← firstFailed_eq_none_iff, h]
    exact Option.some_ne_none e
  exact {
    refused := fun e' => by simp [h]
    noRoom := by simp [hnot]
    found := by simp [hnot]
    exact := fun d hd => by cases hd }

/-- The exponent of a price account leaves room for all the places that a whole number needs. -/
theorem Normalised.of_isPriceAccount {x : Decimal} (h : IsPriceAccount data)
    (hscale : x.scale = 0) (hvalue : x.value = mantissa) :
    Normalised data mantissa (.ok (x.timesPowerOfTen (signedAt data 20 4))) := by
  have hroom : (x.scale : Int) ≤ 28 + signedAt data 20 4 := by
    have hge := h.exponent_ge
    omega
  have habs : |x.value * 10 ^ signedAt data 20 4|
      = |(mantissa : ℚ)| * 10 ^ signedAt data 20 4 := by
    rw [abs_mul, abs_of_pos (a := (10 : ℚ) ^ signedAt data 20 4) (by positivity), hvalue]
  have hnone := Decimal.timesPowerOfTen_eq_none_iff hroom
  rw [habs] at hnone
  refine ⟨fun e => ?_, ?_, ?_, fun d hd => ?_⟩
  · simp [firstFailed_eq_none_iff.2 h]
  · rw [Except.ok.injEq, hnone, and_iff_right h]
  · rw [and_iff_right h, ← not_le, ← hnone, ← ne_eq, Option.ne_none_iff_exists']
    simp only [Except.ok.injEq]
  · obtain ⟨-, hval, hlow⟩ :=
      (Decimal.timesPowerOfTen_eq_some_iff hroom).1 (Except.ok.inj hd)
    rw [hvalue] at hval
    refine ⟨hval, hlow, ?_⟩
    rintro rfl
    exact hlow.scale_eq_zero (by simpa using hval)

/-- **Prices and confidences are exact**: of every byte string the price and its confidence are
normalised as what its bytes say, or the string is refused by the first check that it fails. -/
theorem normalised_price_and_confidence (data : Bytes) :
    Normalised data (signedAt data 208 8) ((decode data).map toDecimal) ∧
      Normalised data (numberAt data 216 8) ((decode data).map confidenceToDecimal) := by
  rcases decode_cases data with ⟨e, hfail, hdec⟩ | ⟨hpass, p, hdec, hexp, hprice, hconf⟩
  · rw [hdec]
    exact ⟨.of_firstFailed hfail, .of_firstFailed hfail⟩
  · have h := firstFailed_eq_none_iff.1 hpass
    rw [hdec]
    constructor
    · show Normalised data _ (.ok ((Decimal.ofInt64 p.price).timesPowerOfTen p.exponent))
      rw [hexp]
      exact .of_isPriceAccount h rfl (by rw [Decimal.ofInt64, Decimal.value_mk_zero, hprice])
    · show Normalised data _ (.ok ((Decimal.ofUInt64 p.confidence).timesPowerOfTen p.exponent))
      rw [hexp]
      exact .of_isPriceAccount h rfl (by rw [Decimal.ofUInt64, Decimal.value_mk_zero, hconf])

end OraclePrice

end DomainAuction
