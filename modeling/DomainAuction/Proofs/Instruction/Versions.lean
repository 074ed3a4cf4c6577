import DomainAuction.Proofs.Instruction.Codec

/-!
# Versions — byte strings that both protocols accept

Nothing in a payload says which protocol it was written for. Two payloads of different protocols
with the same bytes have the same tag, and behind most tags the lengths already tell the layouts
apart. What is left is `init`, which means the same in both, and one accident: the 28 bytes of a
name behind their length fill the place of a hash.
-/

namespace DomainAuction

namespace Payload

variable {p q : Payload} {input : Bytes}

/-! ## Payloads with the same bytes -/

theorem tag_body_of_encode_eq (h : p.encode = q.encode) : p.tag = q.tag ∧ p.body = q.body := by
  unfold encode at h
  obtain ⟨hcode, hbody⟩ := List.cons.inj h
  exact ⟨Tag.code_inj hcode, hbody⟩

/-- The fields of a claim differ in length: the older ones also tell the length of the hash and an
amount. -/
theorem claim_body_ne_legacyClaim_body {hash hash' : Digest} {lamports : UInt64}
    {space space' : UInt32} :
    (claim hash space).body ≠ (legacyClaim hash' lamports space').body := by
  intro h
  have hlen := congrArg List.length h
  simp [body, claimLayout, legacyClaimLayout] at hlen

/-- The fields of a resale start with the same text, and differ in length behind it. -/
theorem resell_body_ne_legacyResell_body {name name' : String} {minimum minimum' endAt : UInt64}
    {maximum : Option UInt64} (hf : FitsPrefix name) (hf' : FitsPrefix name') :
    (resell name minimum endAt maximum).body ≠ (legacyResell name' minimum').body := by
  intro h
  obtain ⟨-, htail⟩ := Layout.exact_text.append_inj hf hf' h
  have hlen := congrArg List.length htail
  simp at hlen

/-- **The only agreements**: of two payloads with the same bytes, one from each protocol, both are
`init`, or both create an auction and the fields of the name are the bytes of the hash. -/
theorem agree_of_encode_eq (hp : p.supportedIn .current) (hq : q.supportedIn .legacy)
    (hpf : p.Fits) (hqf : q.Fits) (h : p.encode = q.encode) :
    (∃ nonce, p = init nonce ∧ q = init nonce) ∨
      ∃ name hash, p = createAuction name ∧ q = legacyCreateAuction hash
        ∧ Layout.text.write name = hash.toList := by
  obtain ⟨htag, hbody⟩ := tag_body_of_encode_eq h
  -- equal tags leave one payload of the current protocol for each of the older one
  cases q with
  | init nonce' =>
    cases p with
    | init nonce =>
      obtain ⟨rfl, -⟩ := Layout.exact_u8.append_inj (s := []) (t := []) trivial trivial
        (congrArg (· ++ []) hbody)
      exact .inl ⟨nonce, rfl, rfl⟩
    | _ => cases htag
  | legacyCreateAuction hash =>
    cases p with
    | createAuction name => exact .inr ⟨name, hash, rfl, rfl, hbody⟩
    | legacyCreateAuction => cases hp
    | _ => cases htag
  | legacyClaim hash' lamports space' =>
    cases p with
    | claim hash space => exact absurd hbody claim_body_ne_legacyClaim_body
    | legacyClaim => cases hp
    | _ => cases htag
  | legacyResell name' minimum' =>
    cases p with
    | resell name minimum endAt maximum =>
      exact absurd hbody (resell_body_ne_legacyResell_body (hpf name (by simp [texts]))
        (hqf name' (by simp [texts])))
    | legacyResell => cases hp
    | _ => cases htag
  | _ => cases hq

/-! ## The accident -/

/-- A byte string in which a name of 28 bytes fills the place of a hash. -/
structure CreatesInBoth (input : Bytes) : Prop where
  tag : input.head? = some Tag.createAuction.code
  length : input.length = 33
  /-- The length prefix of the name. -/
  nameLength : ofLittleEndian ((input.drop 1).take 4) = 28
  name : (ofUtf8? (input.drop 5)).isSome = true

/-- What the two protocols make of such a byte string. -/
theorem CreatesInBoth.decode {input : Bytes} (h : CreatesInBoth input) :
    ∃ name hash, utf8 name = input.drop 5 ∧ hash.toList = input.drop 1
      ∧ decode input .current = .ok (createAuction name)
      ∧ decode input .legacy = .ok (legacyCreateAuction hash) := by
  obtain ⟨htag, hlen, hpre, hname⟩ := h
  obtain ⟨name, hname⟩ := Option.isSome_iff_exists.1 hname
  rw [ofUtf8?_eq_some_iff] at hname
  cases input with
  | nil => cases htag
  | cons code fields =>
    cases htag
    have hfields : fields.length = 32 := by simpa using hlen
    have hutf8 : (utf8 name).length = 28 := by
      rw [hname, List.length_drop, hlen]
    have hfits : FitsPrefix name := by
      rw [FitsPrefix, hutf8]
      decide
    have hprefix : littleEndian 4 28 = fields.take 4 := by
      have h4 : (fields.take 4).length = 4 := List.length_take_of_le (by omega)
      have hback := littleEndian_ofLittleEndian (fields.take 4)
      rwa [h4, show ofLittleEndian (fields.take 4) = 28 from hpre] at hback
    have hwrite : Layout.text.write name = fields := by
      rw [Layout.write_text hfits, hutf8, hname, hprefix]
      exact List.take_append_drop 4 fields
    refine ⟨name, ⟨fields, hfields⟩, hname, rfl, ?_, ?_⟩
    · have hf : (createAuction name).Fits := by simpa [Fits, texts] using hfits
      rw [← hwrite]
      exact decode_encode (p := createAuction name) rfl hf
    · exact decode_encode (p := legacyCreateAuction ⟨fields, hfields⟩) rfl (by simp [Fits, texts])

/-- A name whose fields are the bytes of a hash has 28 bytes, all of it valid. -/
theorem createsInBoth_encode {name : String} {hash : Digest} (hf : FitsPrefix name)
    (h : Layout.text.write name = hash.toList) : CreatesInBoth (createAuction name).encode := by
  have hlen : (utf8 name).length = 28 := by
    have hl := congrArg List.length h
    rw [Layout.length_write_text, hash.length_toList] at hl
    omega
  have henc : (createAuction name).encode
      = Tag.createAuction.code :: (littleEndian 4 28 ++ utf8 name) := by
    show Tag.createAuction.code :: Layout.text.write name = _
    rw [Layout.write_text hf, hlen]
  rw [henc]
  refine ⟨rfl, ?_, ?_, ?_⟩
  · rw [List.length_cons, List.length_append, length_littleEndian, hlen]
  · rfl
  · show (ofUtf8? (utf8 name)).isSome = true
    rw [ofUtf8?_eq_some_iff.2 rfl]
    rfl

/-! ## What both read alike -/

theorem encode_init (nonce : UInt8) : (init nonce).encode = [Tag.init.code, nonce] := by
  show Tag.init.code :: littleEndian 1 nonce.toNat = _
  rw [littleEndian, littleEndian, UInt8.ofNat_toNat]

theorem decode_init (nonce : UInt8) (version : ProtocolVersion) :
    decode [Tag.init.code, nonce] version = .ok (init nonce) := by
  rw [← encode_init]
  exact decode_encode rfl (by simp [Fits, texts])

/-! ## Decoding under the wrong version -/

/-- Two payloads that one byte string decodes to, and what the byte string is. -/
theorem agree_of_decode (hp : decode input .current = .ok p) (hq : decode input .legacy = .ok q) :
    (∃ nonce, input = [Tag.init.code, nonce] ∧ p = init nonce ∧ q = init nonce) ∨
      CreatesInBoth input ∧ p.tag = .createAuction ∧ q.tag = .createAuction := by
  obtain ⟨hpv, hpf, hpe⟩ := of_decode hp
  obtain ⟨hqv, hqf, hqe⟩ := of_decode hq
  rcases agree_of_encode_eq hpv hqv hpf hqf (hpe.symm.trans hqe) with
    ⟨nonce, rfl, rfl⟩ | ⟨name, hash, rfl, rfl, hw⟩
  · exact .inl ⟨nonce, hpe.trans (encode_init nonce), rfl, rfl⟩
  · rw [hpe]
    exact .inr ⟨createsInBoth_encode (hpf name (by simp [texts])) hw, rfl, rfl⟩

/-- The tags that survive the wrong protocol, whichever of the two it is. -/
theorem tag_of_decode_other {version other : ProtocolVersion} (hne : other ≠ version)
    (hp : decode input version = .ok p) (hq : decode input other = .ok q) :
    p.tag = .init ∨ p.tag = .createAuction := by
  cases version with
  | current =>
    cases other with
    | current => exact absurd rfl hne
    | legacy =>
      rcases agree_of_decode hp hq with ⟨nonce, -, rfl, -⟩ | ⟨-, htag, -⟩
      · exact .inl rfl
      · exact .inr htag
  | legacy =>
    cases other with
    | legacy => exact absurd rfl hne
    | current =>
      rcases agree_of_decode hq hp with ⟨nonce, -, -, rfl⟩ | ⟨-, -, htag⟩
      · exact .inl rfl
      · exact .inr htag

/-- **Where a wrong version goes unnoticed**: only on `init`, which both protocols read alike, and on
names of 28 bytes, which the older one takes for a hash. No other payload of either protocol is
accepted by the other. -/
theorem decode_current_and_legacy (input : Bytes) :
    ((∃ p q, decode input .current = .ok p ∧ decode input .legacy = .ok q) ↔
      (∃ nonce, input = [Tag.init.code, nonce]) ∨ CreatesInBoth input) ∧
    (∀ nonce version, input = [Tag.init.code, nonce] →
      decode input version = .ok (init nonce)) ∧
    (CreatesInBoth input → ∃ name hash, (utf8 name).length = 28 ∧
      utf8 name = input.drop 5 ∧ hash.toList = input.drop 1 ∧
      decode input .current = .ok (createAuction name) ∧
      decode input .legacy = .ok (legacyCreateAuction hash)) ∧
    (∀ p version other, decode input version = .ok p → p.tag ≠ .init → p.tag ≠ .createAuction →
      other ≠ version → ∀ q, decode input other ≠ .ok q) := by
  refine ⟨⟨?_, ?_⟩, ?_, ?_, ?_⟩
  · rintro ⟨p, q, hp, hq⟩
    rcases agree_of_decode hp hq with ⟨nonce, hi, -, -⟩ | ⟨hc, -, -⟩
    · exact .inl ⟨nonce, hi⟩
    · exact .inr hc
  · rintro (⟨nonce, rfl⟩ | hc)
    · exact ⟨init nonce, init nonce, decode_init nonce _, decode_init nonce _⟩
    · obtain ⟨name, hash, -, -, hcur, hleg⟩ := hc.decode
      exact ⟨_, _, hcur, hleg⟩
  · rintro nonce version rfl
    exact decode_init nonce version
  · intro hc
    obtain ⟨name, hash, hname, hhash, hcur, hleg⟩ := hc.decode
    exact ⟨name, hash, by rw [hname, List.length_drop, hc.length], hname, hhash, hcur, hleg⟩
  · intro p version other hp hinit hcreate hne q hq
    rcases tag_of_decode_other hne hp hq with htag | htag
    · exact hinit htag
    · exact hcreate htag

end Payload

end DomainAuction
