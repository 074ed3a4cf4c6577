import DomainAuction.Proofs.Instruction.Versions
import DomainAuction.Proofs.Lengths
import DomainAuction.Proofs.Operation.Building

/-!
# LongTexts — names that are too long for their length prefix

The length of a name is written in 32 bits, and an operation is not checked for it. Of the length of
a longer name the prefix records a remainder, and encoding succeeds all the same. What it wrote is
no payload any more: the other fields are too short to make up for what the prefix left out, so that
no protocol decodes it. A long name is lost, and never taken for another one.
-/

namespace DomainAuction

/-- Texts that start the same bytes have lengths with the same remainder. -/
theorem Layout.mod_length_of_write_text {name name' : String} {back back' : Bytes}
    (h : text.write name ++ back = text.write name' ++ back') :
    (utf8 name).length % 2 ^ 32 = (utf8 name').length % 2 ^ 32 := by
  simp only [text, List.append_assoc] at h
  have hpre := (exact_u32.append_inj trivial trivial h).1
  have hlen := congrArg UInt32.toNat hpre
  rwa [UInt32.toNat_ofNat', UInt32.toNat_ofNat'] at hlen

namespace Payload

variable {p q : Payload} {version : ProtocolVersion}

/-- **No long text is spelled like a short one.** A payload with the bytes of one that fits fits
itself. -/
theorem fits_of_encode_eq (hq : q.Fits) (h : p.encode = q.encode) : p.Fits := by
  obtain ⟨-, hbody⟩ := tag_body_of_encode_eq h
  intro name hname
  obtain ⟨back, hp, -⟩ := body_of_mem_texts hname
  have hlen : p.body.length = 4 + (utf8 name).length + back.length := by
    rw [hp, List.length_append, Layout.length_write_text]
  by_contra hlong
  have hlong : 2 ^ 32 ≤ (utf8 name).length := Nat.not_lt.1 hlong
  cases htexts : q.texts with
  | nil =>
    have hshort := length_body_of_texts_nil htexts
    rw [← hbody] at hshort
    omega
  | cons name' rest =>
    have hname' : name' ∈ q.texts := htexts ▸ List.mem_cons_self
    obtain ⟨back', hq', hback'⟩ := body_of_mem_texts hname'
    have hfits : (utf8 name').length < 2 ^ 32 := hq name' hname'
    rw [hp, hq'] at hbody
    -- the prefixes agree, so the two lengths differ by a multiple of 2 ^ 32
    have hmod := Layout.mod_length_of_write_text hbody
    rw [Nat.mod_eq_of_lt hfits] at hmod
    -- and what stands behind the shorter one cannot make up for that
    have hsame := congrArg List.length hbody
    rw [List.length_append, List.length_append, Layout.length_write_text,
      Layout.length_write_text] at hsame
    omega

/-- A payload with a text that is too long is not decoded in any protocol. -/
theorem decode_encode_of_not_fits (h : ¬ p.Fits) (version : ProtocolVersion) :
    ∃ e, decode p.encode version = .error e := by
  cases hd : decode p.encode version with
  | error e => exact ⟨e, rfl⟩
  | ok q =>
    obtain ⟨-, hq, heq⟩ := of_decode hd
    exact absurd (fits_of_encode_eq hq heq) h

/-- What is encoded decodes to itself exactly if the protocol has it and its texts fit. -/
theorem decode_encode_eq_ok_iff :
    decode p.encode version = .ok p ↔ p.supportedIn version = true ∧ p.Fits := by
  constructor
  · intro h
    obtain ⟨hv, hf, -⟩ := of_decode h
    exact ⟨hv, hf⟩
  · rintro ⟨hv, hf⟩
    exact decode_encode hv hf

/-- A text whose length leaves no remainder is written like the empty text, with its bytes behind. -/
theorem write_text_of_dvd {name : String} (h : 2 ^ 32 ∣ (utf8 name).length) :
    Layout.text.write name = Layout.text.write "" ++ utf8 name := by
  have hzero : UInt32.ofNat (utf8 name).length = UInt32.ofNat (utf8 "").length := by
    rw [← UInt32.toNat_inj, UInt32.toNat_ofNat', Nat.mod_eq_zero_of_dvd h]
    rfl
  show Layout.u32.write _ ++ _ = Layout.u32.write _ ++ utf8 "" ++ _
  rw [hzero]
  rfl

end Payload

namespace Operation

variable {op : Operation} {bytes : Bytes}

/-- **What encoding loses.** What was encoded decodes to the payload of the operation exactly in the
protocols that have it, and only if the length of its name fits into 32 bits. With a longer name it
does not decode in any protocol. -/
theorem decode_encoded (h : op.encode = .ok bytes) (version : ProtocolVersion) :
    (Payload.decode bytes version = .ok op.payload
      ↔ op.payload.supportedIn version = true
        ∧ ∀ s ∈ op.payload.texts, (utf8 s).length < 2 ^ 32) ∧
    ((∃ s ∈ op.payload.texts, 2 ^ 32 ≤ (utf8 s).length) →
      ∃ e, Payload.decode bytes version = .error e) := by
  obtain ⟨-, rfl⟩ := encode_eq_ok_iff.1 h
  refine ⟨Payload.decode_encode_eq_ok_iff, ?_⟩
  rintro ⟨s, hs, hlong⟩
  exact Payload.decode_encode_of_not_fits (fun hfits => absurd (hfits s hs) (Nat.not_lt.2 hlong)) _

/-- The creation of a reverse lookup for a name, with the zero address for all accounts. -/
def lookupOf (name : String) : Operation :=
  createReverse ⟨.zero 32, .zero 32, .zero 32, .zero 32, .zero 32, .zero 32, none, none⟩ name

/-- A short name is read back. -/
theorem decode_encoded_sol :
    ∃ bytes, (lookupOf "sol").encode = .ok bytes
      ∧ Payload.decode bytes .current = .ok (lookupOf "sol").payload := by
  refine ⟨_, rfl, (decode_encoded rfl .current).1.2 ⟨rfl, ?_⟩⟩
  decide

/-- A name of `n` letters. It is a function, so that no program has to hold a long one. -/
def letters (n : Nat) : String :=
  String.ofList (List.replicate n 'a')

theorem length_utf8_letters (n : Nat) : (utf8 (letters n)).length = n := by
  have hsize : (letters n).utf8ByteSize = n := by
    unfold letters
    induction n with
    | zero => rfl
    | succ n ih =>
      rw [List.replicate_succ, String.ofList_cons, String.utf8ByteSize_append, ih,
        String.utf8ByteSize_singleton]
      exact Nat.add_comm 1 n
  rw [utf8, Array.length_toList]
  exact hsize

/-- The length of a name with as many letters as there are 32-bit numbers wraps around to zero. It
is written so, and what was written is refused for the bytes of the name, which nothing
announces. -/
theorem encode_letters :
    ∃ bytes, (lookupOf (letters (2 ^ 32))).encode = .ok bytes
      ∧ (lookupOf (letters (2 ^ 32))).payload.supportedIn .current = true
      ∧ Payload.decode bytes .current = .error .trailingBytes := by
  have hlen := length_utf8_letters (2 ^ 32)
  refine ⟨(lookupOf (letters (2 ^ 32))).payload.encode, rfl, rfl, ?_⟩
  have hwrite : (lookupOf (letters (2 ^ 32))).payload.encode
      = (Payload.createReverse "").encode ++ utf8 (letters (2 ^ 32)) := by
    show Tag.createReverse.code :: Layout.text.write (letters (2 ^ 32)) = _
    rw [Payload.write_text_of_dvd (dvd_of_eq hlen.symm)]
    rfl
  rw [hwrite]
  refine Payload.decode_encode_append rfl ?_ ?_
  · intro s hs
    obtain rfl := List.mem_singleton.1 hs
    exact Nat.two_pow_pos 32
  · intro hnil
    rw [hnil] at hlen
    exact absurd hlen (by decide)

end Operation

end DomainAuction
