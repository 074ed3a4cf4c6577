import DomainAuction.Operation.Basic
import DomainAuction.Proofs.Instruction.Codec

/-!
# Building — which operations become instructions, and what they become

An operation is refused for one of three reasons: its protocol is another one, a parent name lacks
its owner, or a resale of the older protocol names an account it cannot have. Everything else is
built, and the data of what was built decode to the payload that the operation meant.
-/

namespace DomainAuction

theorem CreateReverseAccounts.validate_eq_error_iff {x : CreateReverseAccounts}
    {e : AuctionError} :
    x.validate = .error e
      ↔ x.parentName.isSome = true ∧ x.parentNameOwner = none ∧ e = .missingParentNameOwner := by
  unfold validate
  cases x.parentName <;> cases x.parentNameOwner <;> simp [eq_comm]

namespace Operation

variable {op : Operation} {d : Deployment} {e : AuctionError}

/-! ## The reasons for a refusal -/

/-- A parent name is given without its owner. -/
def LacksParentOwner : Operation → Prop
  | createReverse x _ => x.parentName.isSome = true ∧ x.parentNameOwner = none
  | _ => False

/-- A resale of the older protocol names an account for a price at which it ends at once. -/
def HasLegacyBuyNow : Operation → Prop
  | legacyResell x _ _ => x.buyNow.isSome = true
  | _ => False

/-- No operation lacks an owner and has an account too many. -/
theorem LacksParentOwner.not_hasLegacyBuyNow (h : op.LacksParentOwner) : ¬ op.HasLegacyBuyNow := by
  cases op with
  | createReverse => exact id
  | _ => exact h.elim

/-! ## Validation -/

/-- **What validation refuses**, and with which error. -/
theorem validate_eq_error_iff :
    op.validate = .error e ↔ (op.LacksParentOwner ∧ e = .missingParentNameOwner) ∨
      (op.HasLegacyBuyNow ∧ e = .unsupportedProtocolVersion) := by
  cases op with
  | createReverse x name =>
    simp [validate, LacksParentOwner, HasLegacyBuyNow,
      CreateReverseAccounts.validate_eq_error_iff, and_assoc]
  | legacyResell x name minimum =>
    cases h : x.buyNow <;> simp [validate, LacksParentOwner, HasLegacyBuyNow, h, eq_comm]
  | _ => simp [validate, LacksParentOwner, HasLegacyBuyNow]

theorem validate_eq_ok_iff :
    op.validate = .ok () ↔ ¬ op.LacksParentOwner ∧ ¬ op.HasLegacyBuyNow := by
  cases h : op.validate with
  | error e =>
    rcases validate_eq_error_iff.1 h with ⟨hl, -⟩ | ⟨hb, -⟩
    · simp [hl]
    · simp [hb]
  | ok u =>
    have hne : ∀ e, op.validate ≠ .error e := by simp [h]
    simp only [ne_eq, validate_eq_error_iff] at hne
    simp only [true_iff]
    exact ⟨fun hl => hne _ (.inl ⟨hl, rfl⟩), fun hb => hne _ (.inr ⟨hb, rfl⟩)⟩

/-- The accounts of a parent name are checked once more when they are put in order. The second check
refuses nothing that the first one lets pass. -/
theorem metas_of_validate (h : op.validate = .ok ()) : ∃ metas, op.metas = .ok metas := by
  cases op with
  | createReverse x name =>
    have hx : x.validate = .ok () := h
    simp [metas, CreateReverseAccounts.metas, hx]
  | _ => exact ⟨_, rfl⟩

/-- The accounts of a reverse lookup that is created. -/
theorem metas_createReverse {a : CreateReverseAccounts} {name : String} {metas : List AccountMeta}
    (h : (createReverse a name).metas = .ok metas) :
    metas = [.reads a.rentSysvar, .reads a.namingServiceProgram, .reads a.rootDomain,
      .writes a.reverseLookup, .reads (.zero 32), .reads a.centralState, .writesSigned a.feePayer]
        ++ a.parentMetas := by
  change (do a.validate; pure _ : Except AuctionError (List AccountMeta)) = .ok metas at h
  cases hv : a.validate with
  | error e => simp [hv] at h
  | ok u =>
    rw [hv] at h
    exact (Except.ok.inj h).symm

theorem encode_eq_error_iff : op.encode = .error e ↔ op.validate = .error e := by
  cases h : op.validate <;> simp [encode, h]

theorem encode_eq_ok_iff {bytes : Bytes} :
    op.encode = .ok bytes ↔ op.validate = .ok () ∧ op.payload.encode = bytes := by
  cases h : op.validate <;> simp [encode, h]

theorem accounts_eq_ok_iff {metas : List AccountMeta} :
    op.accounts = .ok metas ↔ op.validate = .ok () ∧ op.metas = .ok metas := by
  cases h : op.validate <;> simp [accounts, h]

theorem accounts_eq_error_iff : op.accounts = .error e ↔ op.validate = .error e := by
  cases h : op.validate with
  | error e' => simp [accounts, h]
  | ok u =>
    obtain ⟨metas, hm⟩ := metas_of_validate h
    simp [accounts_eq_ok_iff.2 ⟨h, hm⟩]

/-! ## Building -/

theorem build_of_unsupported (h : op.payload.supportedIn d.version = false) :
    op.build d = .error .unsupportedProtocolVersion := by
  simp [build, h]

theorem build_of_validate_error (hs : op.payload.supportedIn d.version = true)
    (h : op.validate = .error e) : op.build d = .error e := by
  simp [build, hs, accounts, h]

theorem build_of_validate (hs : op.payload.supportedIn d.version = true)
    (h : op.validate = .ok ()) :
    ∃ metas, op.accounts = .ok metas ∧ op.build d = .ok ⟨d.programId, metas, op.payload.encode⟩ := by
  obtain ⟨metas, hm⟩ := metas_of_validate h
  have ha : op.accounts = .ok metas := accounts_eq_ok_iff.2 ⟨h, hm⟩
  refine ⟨metas, ha, ?_⟩
  simp [build, hs, ha, encode_eq_ok_iff.2 ⟨h, rfl⟩]

/-- The three ways that building can go, in the order in which they are tried. -/
theorem build_cases (op : Operation) (d : Deployment) :
    (op.payload.supportedIn d.version = false ∧
      op.build d = .error .unsupportedProtocolVersion) ∨
    (∃ e, op.payload.supportedIn d.version = true ∧ op.validate = .error e ∧
      op.build d = .error e) ∨
    (∃ metas, op.payload.supportedIn d.version = true ∧ op.validate = .ok () ∧
      op.accounts = .ok metas ∧ op.build d = .ok ⟨d.programId, metas, op.payload.encode⟩) := by
  cases hs : op.payload.supportedIn d.version with
  | false => exact .inl ⟨rfl, build_of_unsupported hs⟩
  | true =>
    cases hv : op.validate with
    | error e => exact .inr (.inl ⟨e, rfl, rfl, build_of_validate_error hs hv⟩)
    | ok u =>
      obtain ⟨metas, ha, hb⟩ := build_of_validate hs hv
      exact .inr (.inr ⟨metas, rfl, rfl, ha, hb⟩)

theorem build_eq_ok_iff : (∃ i, op.build d = .ok i) ↔
    op.payload.supportedIn d.version = true ∧ op.validate = .ok () := by
  rcases op.build_cases d with ⟨hs, hb⟩ | ⟨e, hs, hv, hb⟩ | ⟨metas, hs, hv, -, hb⟩
  · simp [hs, hb]
  · simp [hv, hb]
  · simp [hs, hv, hb]

/-- **The error of a refused operation**: that of the version if it is the wrong one or an account is
there that the older protocol does not know, else that of the missing owner. -/
theorem error_of_build (h : op.build d = .error e) :
    e = .unsupportedProtocolVersion
        ∧ (op.payload.supportedIn d.version = false ∨ op.HasLegacyBuyNow) ∨
      e = .missingParentNameOwner
        ∧ ¬ (op.payload.supportedIn d.version = false ∨ op.HasLegacyBuyNow) := by
  rcases op.build_cases d with ⟨hs, hb⟩ | ⟨e', hs, hv, hb⟩ | ⟨metas, -, -, -, hb⟩
  · rw [hb] at h
    cases h
    exact .inl ⟨rfl, .inl hs⟩
  · rw [hb] at h
    cases h
    rcases validate_eq_error_iff.1 hv with ⟨hl, rfl⟩ | ⟨ht, rfl⟩
    · exact .inr ⟨rfl, by simp [hs, hl.not_hasLegacyBuyNow]⟩
    · exact .inl ⟨rfl, .inr ht⟩
  · rw [hb] at h
    cases h

/-- What is built is the operation: its program, its accounts, and data that mean its payload. -/
theorem of_build {i : Instruction} (h : op.build d = .ok i) :
    i.programId = d.programId ∧ op.accounts = .ok i.accounts ∧ i.data = op.payload.encode ∧
      op.payload.supportedIn d.version = true := by
  rcases op.build_cases d with ⟨-, hb⟩ | ⟨e, -, -, hb⟩ | ⟨metas, hs, -, ha, hb⟩
  · rw [hb] at h
    cases h
  · rw [hb] at h
    cases h
  · rw [hb] at h
    cases h
    exact ⟨rfl, ha, rfl, hs⟩

theorem metas_of_build {i : Instruction} (h : op.build d = .ok i) : op.metas = .ok i.accounts := by
  obtain ⟨-, haccounts, -, -⟩ := of_build h
  exact (accounts_eq_ok_iff.1 haccounts).2

/-- **Building, in full**: when it succeeds, with which error it fails, that its two halves fail with
validation, and what a success consists of. -/
theorem build_outcome (op : Operation) (d : Deployment) :
    ((∃ i, op.build d = .ok i) ↔
      op.payload.supportedIn d.version = true ∧ ¬ op.LacksParentOwner ∧ ¬ op.HasLegacyBuyNow) ∧
    (∀ e, op.build d = .error e →
      e.kind = .configuration ∧
      (e = .unsupportedProtocolVersion ↔
        op.payload.supportedIn d.version = false ∨ op.HasLegacyBuyNow) ∧
      (e = .missingParentNameOwner ↔
        ¬ (op.payload.supportedIn d.version = false ∨ op.HasLegacyBuyNow))) ∧
    (∀ e, op.encode = .error e ↔ op.validate = .error e) ∧
    (∀ e, op.accounts = .error e ↔ op.validate = .error e) ∧
    (∀ i, op.build d = .ok i →
      i.programId = d.programId ∧ op.accounts = .ok i.accounts ∧
      ((∀ s ∈ op.payload.texts, (utf8 s).length < 2 ^ 32) →
        Payload.decode i.data d.version = .ok op.payload)) := by
  refine ⟨?_, ?_, fun _ => encode_eq_error_iff, fun _ => accounts_eq_error_iff, ?_⟩
  · rw [build_eq_ok_iff, validate_eq_ok_iff]
  · intro e h
    -- the two errors exclude each other, so each is told by its cause
    rcases error_of_build h with ⟨rfl, hu⟩ | ⟨rfl, hu⟩
    · exact ⟨rfl, by simp [hu], by simp [hu]⟩
    · exact ⟨rfl, by simp [hu], by simp [hu]⟩
  · intro i h
    obtain ⟨hp, ha, hd, hs⟩ := of_build h
    refine ⟨hp, ha, fun hf => ?_⟩
    rw [hd]
    exact Payload.decode_encode hs hf

end Operation

end DomainAuction
