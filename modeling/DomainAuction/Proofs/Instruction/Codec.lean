import DomainAuction.Instruction.Payload
import DomainAuction.Proofs.Packing.Exact

/-!
# Codec — payloads and their bytes

Eleven kinds of payload share eight tags, and three tags stand for another layout in the older
protocol. Still each protocol has one spelling for each of its payloads: a byte string decodes
exactly if it is the encoding of a payload of the protocol, and then to that payload. Both
directions go through the fields behind the tag, with one case for each layout.
-/

namespace DomainAuction

namespace Tag

/-- The inverse of `ofCode?_code`. -/
theorem eq_code_of_ofCode? {code : UInt8} {t : Tag} (h : ofCode? code = some t) :
    code = t.code := by
  unfold ofCode? at h
  split at h <;> cases h <;> rfl

theorem code_inj {s t : Tag} (h : s.code = t.code) : s = t := by
  have hs := ofCode?_code s
  rw [h, ofCode?_code] at hs
  exact (Option.some.inj hs).symm

end Tag

namespace Payload

variable {p : Payload} {version : ProtocolVersion} {input rest : Bytes}

/-- The texts that a payload carries. -/
def texts : Payload → List String
  | createAuction name | resell name .. | legacyResell name .. | createReverse name
  | endAuction name | register name .. => [name]
  | init .. | legacyCreateAuction .. | claim .. | legacyClaim .. | takeBack => []

/-- Every text of a payload has a length that its prefix can tell. -/
def Fits (p : Payload) : Prop := ∀ s ∈ p.texts, FitsPrefix s

/-- A text of a payload comes first among its fields, and the numbers behind it are few. -/
theorem body_of_mem_texts {name : String} (h : name ∈ p.texts) :
    ∃ back, p.body = Layout.text.write name ++ back ∧ back.length ≤ 25 := by
  cases p with
  | resell _ minimum endAt maximum =>
    obtain rfl := List.mem_singleton.1 h
    refine ⟨_, rfl, ?_⟩
    cases maximum <;> simp [Layout.optionalU64]
  | legacyResell | register =>
    obtain rfl := List.mem_singleton.1 h
    exact ⟨_, rfl, by simp⟩
  | createAuction | createReverse | endAuction =>
    obtain rfl := List.mem_singleton.1 h
    exact ⟨[], (List.append_nil _).symm, Nat.zero_le _⟩
  | _ => cases h

/-- Fields without a text are short. -/
theorem length_body_of_texts_nil (h : p.texts = []) : p.body.length ≤ 48 := by
  cases p with
  | init | legacyCreateAuction | claim | legacyClaim | takeBack =>
    simp [body, claimLayout, legacyClaimLayout, Layout.u8, length_littleEndian]
  | _ => cases h

/-! ## The layouts of the fields -/

section

open Layout

theorem exact_claimLayout : claimLayout.Exact fun _ => True :=
  ((exact_octets 32).both exact_u32).congr fun _ => by simp

theorem exact_legacyClaimLayout : legacyClaimLayout.Exact fun _ => True :=
  ((exact_measured (by decide)).both (exact_u64.both exact_u32)).congr fun _ => by simp

theorem exact_resellLayout : resellLayout.Exact fun x => FitsPrefix x.1 :=
  (exact_text.both (exact_u64.both (exact_u64.both exact_optionalU64))).congr fun _ => by simp

theorem exact_legacyResellLayout : legacyResellLayout.Exact fun x => FitsPrefix x.1 :=
  (exact_text.both exact_u64).congr fun _ => by simp

theorem exact_registerLayout : registerLayout.Exact fun x => FitsPrefix x.1 :=
  (exact_text.both exact_u32).congr fun _ => by simp

end

/-! ## The fields behind a tag -/

/-- **Reading only finds what is written**: a payload of the tag and the protocol, whose fields are
the bytes that were taken. -/
theorem of_readBody {t : Tag} (ht : t.existsIn version)
    (h : readBody t version input = .ok p rest) :
    p.tag = t ∧ p.supportedIn version ∧ p.Fits ∧ input = p.body ++ rest := by
  cases t with
  | init =>
    obtain ⟨nonce, -, hi, rfl⟩ := Layout.exact_u8.map_eq_ok_iff.1 h
    exact ⟨rfl, rfl, by simp [Fits, texts], hi⟩
  | createAuction =>
    cases version with
    | legacy =>
      obtain ⟨hash, -, hi, rfl⟩ := (Layout.exact_octets 32).map_eq_ok_iff.1 h
      exact ⟨rfl, rfl, by simp [Fits, texts], hi⟩
    | current =>
      obtain ⟨name, hf, hi, rfl⟩ := Layout.exact_text.map_eq_ok_iff.1 h
      exact ⟨rfl, rfl, by simpa [Fits, texts] using hf, hi⟩
  | claim =>
    cases version with
    | legacy =>
      obtain ⟨⟨hash, lamports, space⟩, -, hi, rfl⟩ := exact_legacyClaimLayout.map_eq_ok_iff.1 h
      exact ⟨rfl, rfl, by simp [Fits, texts], hi⟩
    | current =>
      obtain ⟨⟨hash, space⟩, -, hi, rfl⟩ := exact_claimLayout.map_eq_ok_iff.1 h
      exact ⟨rfl, rfl, by simp [Fits, texts], hi⟩
  | resell =>
    cases version with
    | legacy =>
      obtain ⟨⟨name, minimum⟩, hf, hi, rfl⟩ := exact_legacyResellLayout.map_eq_ok_iff.1 h
      exact ⟨rfl, rfl, by simpa [Fits, texts] using hf, hi⟩
    | current =>
      obtain ⟨⟨name, minimum, endAt, maximum⟩, hf, hi, rfl⟩ :=
        exact_resellLayout.map_eq_ok_iff.1 h
      exact ⟨rfl, rfl, by simpa [Fits, texts] using hf, hi⟩
  | createReverse =>
    cases version with
    | legacy => cases ht
    | current =>
      obtain ⟨name, hf, hi, rfl⟩ := Layout.exact_text.map_eq_ok_iff.1 h
      exact ⟨rfl, rfl, by simpa [Fits, texts] using hf, hi⟩
  | endAuction =>
    cases version with
    | legacy => cases ht
    | current =>
      obtain ⟨name, hf, hi, rfl⟩ := Layout.exact_text.map_eq_ok_iff.1 h
      exact ⟨rfl, rfl, by simpa [Fits, texts] using hf, hi⟩
  | register =>
    cases version with
    | legacy => cases ht
    | current =>
      obtain ⟨⟨name, space⟩, hf, hi, rfl⟩ := exact_registerLayout.map_eq_ok_iff.1 h
      exact ⟨rfl, rfl, by simpa [Fits, texts] using hf, hi⟩
  | takeBack =>
    cases version with
    | legacy => cases ht
    | current =>
      obtain ⟨rfl, rfl⟩ := Running.pure_eq_ok_iff.1 h
      exact ⟨rfl, rfl, by simp [Fits, texts], rfl⟩

/-- **Everything written is read back**, whatever stands behind it. -/
theorem readBody_body (hv : p.supportedIn version) (hf : p.Fits) :
    readBody p.tag version (p.body ++ rest) = .ok p rest := by
  cases p with
  | init nonce =>
    exact Layout.exact_u8.map_eq_ok_iff.2 ⟨nonce, trivial, rfl, rfl⟩
  | createAuction name =>
    cases version with
    | legacy => cases hv
    | current => exact Layout.exact_text.map_eq_ok_iff.2 ⟨name, hf name (by simp [texts]), rfl, rfl⟩
  | legacyCreateAuction hash =>
    cases version with
    | legacy => exact (Layout.exact_octets 32).map_eq_ok_iff.2 ⟨hash, trivial, rfl, rfl⟩
    | current => cases hv
  | claim hash space =>
    cases version with
    | legacy => cases hv
    | current => exact exact_claimLayout.map_eq_ok_iff.2 ⟨(hash, space), trivial, rfl, rfl⟩
  | legacyClaim hash lamports space =>
    cases version with
    | legacy =>
      exact exact_legacyClaimLayout.map_eq_ok_iff.2 ⟨(hash, lamports, space), trivial, rfl, rfl⟩
    | current => cases hv
  | resell name minimum endAt maximum =>
    cases version with
    | legacy => cases hv
    | current =>
      exact exact_resellLayout.map_eq_ok_iff.2
        ⟨(name, minimum, endAt, maximum), hf name (by simp [texts]), rfl, rfl⟩
  | legacyResell name minimum =>
    cases version with
    | legacy =>
      exact exact_legacyResellLayout.map_eq_ok_iff.2
        ⟨(name, minimum), hf name (by simp [texts]), rfl, rfl⟩
    | current => cases hv
  | createReverse name =>
    exact Layout.exact_text.map_eq_ok_iff.2 ⟨name, hf name (by simp [texts]), rfl, rfl⟩
  | endAuction name =>
    exact Layout.exact_text.map_eq_ok_iff.2 ⟨name, hf name (by simp [texts]), rfl, rfl⟩
  | register name space =>
    exact exact_registerLayout.map_eq_ok_iff.2
      ⟨(name, space), hf name (by simp [texts]), rfl, rfl⟩
  | takeBack => exact Running.pure_eq_ok_iff.2 ⟨rfl, rfl⟩

/-! ## Whole payloads -/

/-- A payload that a protocol supports has a tag that the protocol knows. -/
theorem existsIn_tag (hv : p.supportedIn version) : p.tag.existsIn version := by
  cases version with
  | current => cases p <;> rfl
  | legacy => cases p <;> first | rfl | cases hv

/-- All that a byte string has to be for decoding to succeed: a tag of the protocol, and fields that
are read to the end. -/
theorem decode_eq_ok_iff_readBody :
    decode input version = .ok p
      ↔ ∃ t fields, input = t.code :: fields ∧ t.existsIn version
          ∧ readBody t version fields = .ok p [] := by
  constructor
  · intro h
    cases input with
    | nil => cases h
    | cons code fields =>
      simp only [decode] at h
      -- first the tag has to be one, then one of the protocol
      cases ht : Tag.ofCode? code with
      | none => simp [ht] at h
      | some t =>
        simp only [ht] at h
        split at h
        · next he =>
          exact ⟨t, fields, by rw [Tag.eq_code_of_ofCode? ht], he,
            Reader.value_finish_eq_ok_iff.1 h⟩
        · cases h
  · rintro ⟨t, fields, rfl, he, h⟩
    simp only [decode, Tag.ofCode?_code, if_pos he]
    exact Reader.value_finish_eq_ok_iff.2 h

theorem of_decode (h : decode input version = .ok p) :
    p.supportedIn version ∧ p.Fits ∧ input = p.encode := by
  obtain ⟨t, fields, rfl, he, hr⟩ := decode_eq_ok_iff_readBody.1 h
  obtain ⟨rfl, hv, hf, hi⟩ := of_readBody he hr
  exact ⟨hv, hf, by rw [hi, List.append_nil, encode]⟩

theorem decode_encode (hv : p.supportedIn version) (hf : p.Fits) :
    decode p.encode version = .ok p := by
  refine decode_eq_ok_iff_readBody.2 ⟨p.tag, p.body, rfl, existsIn_tag hv, ?_⟩
  have h : readBody p.tag version (p.body ++ []) = .ok p [] := readBody_body hv hf
  rwa [List.append_nil] at h

/-- **One spelling for each payload**: a byte string decodes in a protocol exactly if it is the
encoding of a payload of that protocol whose texts are short enough for their prefixes, and then to
this payload. -/
theorem decode_eq_ok_iff_eq_encode (input : Bytes) (version : ProtocolVersion) (p : Payload) :
    decode input version = .ok p
      ↔ p.supportedIn version = true ∧ (∀ s ∈ p.texts, (utf8 s).length < 2 ^ 32)
          ∧ input = p.encode := by
  constructor
  · exact of_decode
  · rintro ⟨hv, hf, rfl⟩
    exact decode_encode hv hf

end Payload

end DomainAuction
