import DomainAuction.Proofs.Instruction.Codec
import DomainAuction.Proofs.Packing.Cuts
import DomainAuction.Proofs.Record.AccountData

/-!
# Lengths — byte strings that are too short or too long

What was written for a payload or a record is read back at one length only. Cut off anywhere, it is
refused for bytes that are missing: the error names the length of a text if the cut leaves its
length prefix whole and some of its bytes off, and the length of the input everywhere else. So a cut
never shows as invalid text, as an unknown status, or as another value. Anything behind a payload is
refused, too. Behind a record it is not, as accounts are larger than what they hold.
-/

namespace DomainAuction

/-! ## Payloads -/

namespace Payload

open Layout

variable {p : Payload} {version : ProtocolVersion} {cut : Nat} {rest : Bytes}

/-- The error of a payload that is cut off. Its texts stand behind the tag and the four bytes that
tell their length. -/
def cutError (p : Payload) (cut : Nat) : AuctionError :=
  if ∃ name ∈ p.texts, 5 ≤ cut ∧ cut < 5 + (utf8 name).length then .invalidStringLength
  else .insufficientByteLength

theorem cutError_of_texts_nil (h : p.texts = []) : p.cutError cut = .insufficientByteLength := by
  simp [cutError, h]

theorem cutError_of_texts_singleton {name : String} (h : p.texts = [name]) :
    p.cutError (cut + 1) = textCutError name cut := by
  have hplace : 5 ≤ cut + 1 ∧ cut + 1 < 5 + (utf8 name).length
      ↔ 4 ≤ cut ∧ cut < 4 + (utf8 name).length := by omega
  simp only [cutError, textCutError, h, List.mem_singleton, exists_eq_left, hplace]

/-! ### The layouts of the fields -/

theorem claimLayout_refusesShort : claimLayout.RefusesShort fun _ => True :=
  ((octets_fixedSize 32).refusesShort.both (exact_octets 32) u32_fixedSize.refusesShort).congr
    (fun _ _ => ⟨trivial, trivial⟩) fun _ _ => rfl

theorem legacyClaimLayout_refusesShort : legacyClaimLayout.RefusesShort fun _ => True := by
  have hamounts := u64_fixedSize.refusesShort.both exact_u64 u32_fixedSize.refusesShort
  have hhash : (32 : Nat) < 2 ^ 32 := by decide
  exact ((measured_refusesShort hhash).both (exact_measured hhash) hamounts).congr
    (fun _ _ => ⟨trivial, trivial, trivial⟩) fun _ _ => rfl

theorem resellLayout_refusesCuts :
    resellLayout.RefusesCuts (fun x => FitsPrefix x.1) fun x => textCutError x.1 := by
  have htimes := u64_fixedSize.refusesShort.both exact_u64 optionalU64_refusesShort
  have hprices := u64_fixedSize.refusesShort.both exact_u64 htimes
  exact (text_both_refusesCuts hprices).congr (fun _ hname => ⟨hname, trivial, trivial, trivial⟩)
    fun _ _ => rfl

theorem legacyResellLayout_refusesCuts :
    legacyResellLayout.RefusesCuts (fun x => FitsPrefix x.1) fun x => textCutError x.1 :=
  (text_both_refusesCuts u64_fixedSize.refusesShort).congr (fun _ hname => ⟨hname, trivial⟩)
    fun _ _ => rfl

theorem registerLayout_refusesCuts :
    registerLayout.RefusesCuts (fun x => FitsPrefix x.1) fun x => textCutError x.1 :=
  (text_both_refusesCuts u32_fixedSize.refusesShort).congr (fun _ hname => ⟨hname, trivial⟩)
    fun _ _ => rfl

/-! ### Whole payloads -/

/-- The fields behind a tag, cut off. -/
theorem readBody_take_body (hv : p.supportedIn version) (hf : p.Fits) (hcut : cut < p.body.length) :
    ∃ rest, readBody p.tag version (p.body.take cut) = .error (p.cutError (cut + 1)) rest := by
  cases p with
  | init nonce =>
    rw [cutError_of_texts_nil rfl]
    exact u8_fixedSize.refusesShort.map init trivial hcut
  | createAuction name =>
    cases version with
    | legacy => cases hv
    | current =>
      rw [cutError_of_texts_singleton rfl]
      exact text_refusesCuts.map createAuction (hf name (by simp [texts])) hcut
  | legacyCreateAuction hash =>
    cases version with
    | legacy =>
      rw [cutError_of_texts_nil rfl]
      exact (octets_fixedSize 32).refusesShort.map legacyCreateAuction trivial hcut
    | current => cases hv
  | claim hash space =>
    cases version with
    | legacy => cases hv
    | current =>
      rw [cutError_of_texts_nil rfl]
      exact claimLayout_refusesShort.map _ trivial hcut
  | legacyClaim hash lamports space =>
    cases version with
    | legacy =>
      rw [cutError_of_texts_nil rfl]
      exact legacyClaimLayout_refusesShort.map _ trivial hcut
    | current => cases hv
  | resell name minimum endAt maximum =>
    cases version with
    | legacy => cases hv
    | current =>
      rw [cutError_of_texts_singleton rfl]
      exact resellLayout_refusesCuts.map _ (hf name (by simp [texts])) hcut
  | legacyResell name minimum =>
    cases version with
    | legacy =>
      rw [cutError_of_texts_singleton rfl]
      exact legacyResellLayout_refusesCuts.map _ (hf name (by simp [texts])) hcut
    | current => cases hv
  | createReverse name =>
    rw [cutError_of_texts_singleton rfl]
    exact text_refusesCuts.map createReverse (hf name (by simp [texts])) hcut
  | endAuction name =>
    rw [cutError_of_texts_singleton rfl]
    exact text_refusesCuts.map endAuction (hf name (by simp [texts])) hcut
  | register name space =>
    rw [cutError_of_texts_singleton rfl]
    exact registerLayout_refusesCuts.map _ (hf name (by simp [texts])) hcut
  | takeBack => exact absurd hcut (Nat.not_lt_zero cut)

/-- **A payload that is cut off** is refused, and the error says where. -/
theorem decode_take_encode (hv : p.supportedIn version) (hf : p.Fits)
    (hcut : cut < p.encode.length) :
    decode (p.encode.take cut) version = .error (p.cutError cut) := by
  cases cut with
  | zero =>
    -- not even the tag is left
    have hnone : p.cutError 0 = .insufficientByteLength := by simp [cutError]
    rw [hnone]
    rfl
  | succ cut =>
    obtain ⟨rest, hread⟩ := readBody_take_body hv hf (Nat.lt_of_succ_lt_succ hcut)
    show decode (p.tag.code :: p.body.take cut) version = _
    simp only [decode, Tag.ofCode?_code, if_pos (existsIn_tag hv)]
    exact Reader.value_eq_error_iff.2 ⟨rest, Running.bind_of_error hread⟩

/-- **A payload with anything behind it** is refused. -/
theorem decode_encode_append (hv : p.supportedIn version) (hf : p.Fits) (hrest : rest ≠ []) :
    decode (p.encode ++ rest) version = .error .trailingBytes := by
  show decode (p.tag.code :: (p.body ++ rest)) version = _
  simp only [decode, Tag.ofCode?_code, if_pos (existsIn_tag hv)]
  exact Reader.value_finish_of_rest (readBody_body hv hf) hrest

/-- A text of a payload comes first behind the tag, with its length in front. -/
theorem encode_of_mem_texts {name : String} (hf : p.Fits) (h : name ∈ p.texts) :
    ∃ back, p.encode
      = p.tag.code :: (littleEndian 4 (utf8 name).length ++ (utf8 name ++ back)) := by
  obtain ⟨back, hback, -⟩ := body_of_mem_texts h
  exact ⟨back, by rw [encode, hback, write_text (hf name h), List.append_assoc]⟩

end Payload

/-! ## Records -/

open Layout

theorem CentralState.fixedSize : layout.FixedSize 1 :=
  u8_fixedSize.iso _ _

theorem ResellingState.fixedSize : layout.FixedSize 32 :=
  (octets_fixedSize 32).iso _ _

theorem NameAuction.fixedSize : layout.FixedSize 66 :=
  fixedSize_sized NameAuction.length_write

theorem NameHeader.fixedSize : layout.FixedSize 96 :=
  fixedSize_sized NameHeader.length_write

theorem BidderPot.fixedSize : layout.FixedSize 97 :=
  fixedSize_sized fun p => by
    show (layout.write p).length = 97
    simp [BidderPot.write_layout]

theorem AuctionHeader.refusesShort : layout.RefusesShort fun _ => True := by
  have htime := optionalTime_refusesShort
  have haddress := (octets_fixedSize 32).refusesShort
  have htimes := htime.both exact_optionalTime (htime.both exact_optionalTime
    (htime.both exact_optionalTime htime))
  have hfields := haddress.both (exact_octets 32) (haddress.both (exact_octets 32)
    (haddress.both (exact_octets 32) htimes))
  exact (hfields.iso _ _).congr (fun _ _ => by simp) fun _ _ => rfl

/-- The text of a reverse lookup stands behind its header. -/
theorem ReverseLookup.refusesCuts :
    layout.RefusesCuts (fun r => FitsPrefix r.name) fun r cut =>
      if 100 ≤ cut ∧ cut < 100 + (utf8 r.name).length then .invalidStringLength
      else .insufficientByteLength := by
  have hfields := RefusesCuts.both NameHeader.fixedSize.refusesShort NameHeader.exact_layout
    text_refusesCuts
  refine (hfields.iso _ _).congr (fun _ hname => ⟨trivial, hname⟩) fun r cut => ?_
  have hheader : (NameHeader.layout.write r.header).length = 96 := r.header.length_write
  simp only [hheader, textCutError]
  by_cases hcut : cut < 96
  · rw [if_pos hcut, if_neg (by omega)]
  · rw [if_neg hcut]
    have hplace : 4 ≤ cut - 96 ∧ cut - 96 < 4 + (utf8 r.name).length
        ↔ 100 ≤ cut ∧ cut < 100 + (utf8 r.name).length := by omega
    simp only [hplace]

theorem ReverseLookup.write_layout {r : ReverseLookup} (hname : FitsPrefix r.name) :
    layout.write r = NameHeader.layout.write r.header
      ++ (littleEndian 4 (utf8 r.name).length ++ utf8 r.name) := by
  rw [← write_text hname]
  rfl

/-! ## All that is written -/

/-- **A wrong length is refused, and the error says where the bytes stop.** A payload is refused
when it is cut off, and when anything stands behind it. Of the records, the text of a reverse lookup
can be cut off like that of a payload; an auction header is always short of a field, and records of
one size are refused as soon as they are shorter, whatever their bytes are. -/
theorem wrong_lengths_refused :
    (∀ (p : Payload) (version : ProtocolVersion), p.supportedIn version = true →
      (∀ s ∈ p.texts, (utf8 s).length < 2 ^ 32) →
        (∀ name ∈ p.texts, ∃ back, p.encode
          = p.tag.code :: (littleEndian 4 (utf8 name).length ++ (utf8 name ++ back))) ∧
        (∀ cut < p.encode.length, Payload.decode (p.encode.take cut) version
          = .error (if ∃ name ∈ p.texts, 5 ≤ cut ∧ cut < 5 + (utf8 name).length
              then .invalidStringLength else .insufficientByteLength)) ∧
        ∀ rest, rest ≠ [] → Payload.decode (p.encode ++ rest) version = .error .trailingBytes) ∧
    (∀ r : ReverseLookup, (utf8 r.name).length < 2 ^ 32 →
      ReverseLookup.layout.write r = NameHeader.layout.write r.header
        ++ (littleEndian 4 (utf8 r.name).length ++ utf8 r.name) ∧
      ∀ cut < (ReverseLookup.layout.write r).length,
        ReverseLookup.layout.decode ((ReverseLookup.layout.write r).take cut)
          = .error (if 100 ≤ cut ∧ cut < 100 + (utf8 r.name).length
              then .invalidStringLength else .insufficientByteLength)) ∧
    (∀ (h : AuctionHeader) (cut : Nat), cut < (AuctionHeader.layout.write h).length →
      AuctionHeader.layout.decode ((AuctionHeader.layout.write h).take cut)
        = .error .insufficientByteLength) ∧
    NameAuction.layout.FixedSize 66 ∧ NameHeader.layout.FixedSize 96 ∧
    BidderPot.layout.FixedSize 97 ∧ ResellingState.layout.FixedSize 32 ∧
    CentralState.layout.FixedSize 1 := by
  refine ⟨fun p version hv hf => ⟨?_, ?_, ?_⟩, fun r hname => ⟨?_, ?_⟩, ?_, NameAuction.fixedSize,
    NameHeader.fixedSize, BidderPot.fixedSize, ResellingState.fixedSize, CentralState.fixedSize⟩
  · intro name hmem
    exact Payload.encode_of_mem_texts hf hmem
  · intro cut hcut
    exact Payload.decode_take_encode hv hf hcut
  · intro rest hrest
    exact Payload.decode_encode_append hv hf hrest
  · exact ReverseLookup.write_layout hname
  · intro cut hcut
    exact ReverseLookup.refusesCuts.decode_take hname hcut
  · intro h cut hcut
    exact AuctionHeader.refusesShort.decode_take trivial hcut

/-- A resale of `é`, a name of two bytes: cut off inside the name, and on either side of it. -/
theorem wrong_lengths_of_resale :
    Payload.decode ((Payload.legacyResell "é" 7).encode.take 4) .legacy
        = .error .insufficientByteLength ∧
      Payload.decode ((Payload.legacyResell "é" 7).encode.take 6) .legacy
        = .error .invalidStringLength ∧
      Payload.decode ((Payload.legacyResell "é" 7).encode.take 7) .legacy
        = .error .insufficientByteLength := by
  have hname : utf8 "é" = [195, 169] := by decide +kernel
  obtain ⟨-, hcut, -⟩ := wrong_lengths_refused.1 (.legacyResell "é" 7) .legacy rfl
    (by simp [Payload.texts, hname])
  have hlen : (Payload.legacyResell "é" 7).encode.length = 15 := by
    simp [Payload.encode, Payload.body, Payload.legacyResellLayout, hname]
  refine ⟨?_, ?_, ?_⟩
  · rw [hcut 4 (by omega)]
    simp
  · rw [hcut 6 (by omega)]
    simp [Payload.texts, hname]
  · rw [hcut 7 (by omega)]
    simp [Payload.texts, hname]

end DomainAuction
