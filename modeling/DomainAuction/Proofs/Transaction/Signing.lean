import DomainAuction.Proofs.Transaction.Limits
import DomainAuction.Transaction.Draft

/-!
# Signing — which keys sign a draft

The keys at hand are the payer's and those of the draft. Signing asks four questions in turn: whether
a header can count the keys of the message, whether the message wants every key at hand, whether it
can be written, and whether every key that it wants is at hand. What is signed is the message of the
draft, whoever signs it.
-/

namespace DomainAuction

namespace SigningKey

variable {keys : List SigningKey} {a : Address} {as : List Address}

/-- A list of keys has a key for an address. -/
def Covers (keys : List SigningKey) (a : Address) : Prop :=
  ∃ k ∈ keys, k.publicKey = a

@[simp] theorem not_covers_nil : ¬ Covers [] a := by
  rintro ⟨k, hk, -⟩
  cases hk

@[simp] theorem covers_cons {key : SigningKey} :
    Covers (key :: keys) a ↔ key.publicKey = a ∨ Covers keys a := by
  simp [Covers]

/-- The key of an address among some keys, by its public key. -/
def find (keys : List SigningKey) (a : Address) : Option SigningKey :=
  (keys.map fun k => (k.publicKey, k)).lookup a

/-- The key that is found is one of the keys, and has the address. -/
theorem mem_of_find {k : SigningKey} (h : find keys a = some k) : k ∈ keys ∧ k.publicKey = a := by
  obtain ⟨before, after, hsplit, -⟩ := List.lookup_eq_some_iff.1 h
  have hmem : (a, k) ∈ keys.map fun k => (k.publicKey, k) := by
    rw [hsplit]
    exact List.mem_append_right _ List.mem_cons_self
  obtain ⟨k', hk', heq⟩ := List.mem_map.1 hmem
  obtain ⟨rfl, rfl⟩ := Prod.mk.inj heq
  exact ⟨hk', rfl⟩

theorem find_cons_self (key : SigningKey) (keys : List SigningKey) :
    find (key :: keys) key.publicKey = some key := by
  simp [find]

theorem not_covers_of_find (h : find keys a = none) : ¬ Covers keys a := by
  rintro ⟨k, hk, rfl⟩
  have hne := List.lookup_eq_none_iff.1 h (k.publicKey, k) (List.mem_map_of_mem hk)
  simp at hne

/-- The keys by their public keys are all among some addresses if their addresses are. -/
theorem all_contains_iff : ((keys.map fun k => (k.publicKey, k)).all fun k => as.contains k.1) = true
    ↔ ∀ k ∈ keys, k.publicKey ∈ as := by
  rw [List.all_eq_true, List.forall_mem_map]
  simp only [List.contains_iff_mem]

/-- The keys of some addresses, in their order. -/
def FoundIn (keys : List SigningKey) (as : List Address) (found : List SigningKey) : Prop :=
  List.Forall₂ (fun a k => find keys a = some k) as found

theorem FoundIn.covers {found : List SigningKey} (h : FoundIn keys as found) :
    ∀ a ∈ as, Covers keys a := by
  induction h with
  | nil => exact fun _ ha => nomatch ha
  | cons hfind _ ih => exact List.forall_mem_cons.2 ⟨⟨_, mem_of_find hfind⟩, ih⟩

/-- Either every address has a key, and they are found in order, or one has none. -/
theorem mapM_find_cases (keys : List SigningKey) (as : List Address) :
    (∃ found, as.mapM (find keys) = some found ∧ FoundIn keys as found) ∨
      (as.mapM (find keys) = none ∧ ∃ a ∈ as, ¬ Covers keys a) := by
  induction as with
  | nil => exact .inl ⟨[], rfl, .nil⟩
  | cons a as ih =>
    cases hfind : find keys a with
    | none => exact .inr ⟨by simp [hfind], a, List.mem_cons_self, not_covers_of_find hfind⟩
    | some k =>
      obtain ⟨found, hfound, hin⟩ | ⟨hnone, b, hb, hnot⟩ := ih
      · exact .inl ⟨k :: found, by simp [hfind, hfound], .cons hfind hin⟩
      · exact .inr ⟨by simp [hfind, hnone], b, List.mem_cons_of_mem a hb, hnot⟩

end SigningKey

namespace SigningError

theorem reason_inj {d e : SigningError} (h : d.reason = e.reason) : d = e := by
  rcases d with _ | _ | (_ | _) <;> rcases e with _ | _ | (_ | _) <;>
    first | rfl | exact absurd h (by decide)

/-- The text tells the error. -/
theorem exists_reason_iff {α : Type} {r : Except SigningError α} {e : SigningError} {text : String}
    (h : e.reason = text) : (∃ d, r = .error d ∧ d.reason = text) ↔ r = .error e := by
  constructor
  · rintro ⟨d, hd, hreason⟩
    rw [hd, reason_inj (hreason.trans h.symm)]
  · exact fun hr => ⟨e, hr, h⟩

end SigningError

namespace Draft

open Message (Countable Limits)
open SigningKey (Covers FoundIn)

variable {draft : Draft} {payer : SigningKey} {beforehand : List Instruction} {blockhash : Digest}

/-- The keys that sign a draft. -/
def keysAtHand (draft : Draft) (payer : SigningKey) : List SigningKey :=
  payer :: draft.signers

/-- The keys that the message of a draft wants. -/
def wanted (draft : Draft) (payer : SigningKey) (beforehand : List Instruction) : List Address :=
  Message.requiredSigners payer.publicKey (beforehand ++ draft.instructions)

theorem mem_wanted_iff {a : Address} : a ∈ draft.wanted payer beforehand
    ↔ a = payer.publicKey ∨ ∃ i ∈ beforehand ++ draft.instructions, a ∈ i.signers :=
  Message.mem_requiredSigners_iff

/-- Every key at hand is wanted. -/
def NoneTooMany (draft : Draft) (payer : SigningKey) (beforehand : List Instruction) : Prop :=
  ∀ k ∈ draft.keysAtHand payer, k.publicKey ∈ draft.wanted payer beforehand

/-- Every wanted key is at hand. -/
def NoneMissing (draft : Draft) (payer : SigningKey) (beforehand : List Instruction) : Prop :=
  ∀ a ∈ draft.wanted payer beforehand, Covers (draft.keysAtHand payer) a

/-- A transaction with the message of a draft, and a signature of its bytes by a key at hand for each
key that it wants. -/
def SignedBy (draft : Draft) (payer : SigningKey) (beforehand : List Instruction)
    (blockhash : Digest) (found : List SigningKey) (bytes : Bytes) (t : Transaction) : Prop :=
  draft.message payer.publicKey beforehand blockhash = some t.message ∧
    Wire.Writer.message t.message = some bytes ∧
    FoundIn (draft.keysAtHand payer) (draft.wanted payer beforehand) found ∧
    t.signatures = found.map (·.sign bytes)

/-- The ways that signing can end, in the order in which they are noticed. -/
inductive Outcome (draft : Draft) (payer : SigningKey) (beforehand : List Instruction)
    (blockhash : Digest) : Except SigningError Transaction → Prop
  | uncounted : ¬ Countable payer.publicKey (beforehand ++ draft.instructions) →
    Outcome draft payer beforehand blockhash (.error (.beyond .keys))
  | tooMany : Countable payer.publicKey (beforehand ++ draft.instructions) →
    ¬ draft.NoneTooMany payer beforehand →
    Outcome draft payer beforehand blockhash (.error .unexpectedSigner)
  | unwritten : Countable payer.publicKey (beforehand ++ draft.instructions) →
    draft.NoneTooMany payer beforehand →
    ¬ Limits payer.publicKey (beforehand ++ draft.instructions) →
    Outcome draft payer beforehand blockhash (.error (.beyond .lengths))
  | missing : Limits payer.publicKey (beforehand ++ draft.instructions) →
    draft.NoneTooMany payer beforehand → ¬ draft.NoneMissing payer beforehand →
    Outcome draft payer beforehand blockhash (.error .missingSigner)
  | signed {found : List SigningKey} {bytes : Bytes} {t : Transaction} :
    Limits payer.publicKey (beforehand ++ draft.instructions) →
    draft.NoneTooMany payer beforehand →
    draft.SignedBy payer beforehand blockhash found bytes t →
    Outcome draft payer beforehand blockhash (.ok t)

/-- **How signing ends.** -/
theorem sign_outcome (draft : Draft) (payer : SigningKey) (beforehand : List Instruction)
    (blockhash : Digest) :
    draft.Outcome payer beforehand blockhash (draft.sign payer beforehand blockhash) := by
  unfold sign
  dsimp only
  cases hm : draft.message payer.publicKey beforehand blockhash with
  | none =>
    refine .uncounted fun hcountable => ?_
    obtain ⟨m, hcompile⟩ := Message.exists_compile_iff.2 hcountable
    cases hm.symm.trans hcompile
  | some m =>
    have hcountable := Message.exists_compile_iff.1 ⟨m, hm⟩
    have hwritten := Message.isSome_message_iff hm
    have hwanted : m.signerKeys = draft.wanted payer beforehand := Message.signerKeys_of_compile hm
    dsimp only
    rw [hwanted, ← keysAtHand]
    by_cases hall : draft.NoneTooMany payer beforehand
    · rw [if_pos (SigningKey.all_contains_iff.2 hall)]
      cases hbytes : Wire.Writer.message m with
      | none =>
        rw [hbytes] at hwritten
        exact .unwritten hcountable hall fun hlimits => Bool.false_ne_true (hwritten.2 hlimits)
      | some bytes =>
        rw [hbytes] at hwritten
        have hlimits := hwritten.1 rfl
        have hsigners : (draft.wanted payer beforehand).mapM
            (fun a => ((draft.keysAtHand payer).map fun k => (k.publicKey, k)).lookup a)
              = (draft.wanted payer beforehand).mapM
                (SigningKey.find (draft.keysAtHand payer)) := rfl
        rw [hsigners]
        obtain ⟨found, hfound, hin⟩ | ⟨hnone, a, ha, hnot⟩ := SigningKey.mapM_find_cases
          (draft.keysAtHand payer) (draft.wanted payer beforehand)
        · rw [hfound]
          exact .signed hlimits hall ⟨hm, hbytes, hin, rfl⟩
        · rw [hnone]
          exact .missing hlimits hall fun hmissing => hnot (hmissing a ha)
    · rw [if_neg fun hcheck => hall (SigningKey.all_contains_iff.1 hcheck)]
      exact .tooMany hcountable hall

/-! ## When signing ends in which way -/

/-- **Signing succeeds** within the limits, with neither a key too many nor a key too few. -/
theorem exists_sign_iff : (∃ t, draft.sign payer beforehand blockhash = .ok t) ↔
    Limits payer.publicKey (beforehand ++ draft.instructions) ∧
      draft.NoneTooMany payer beforehand ∧ draft.NoneMissing payer beforehand := by
  have houtcome := draft.sign_outcome payer beforehand blockhash
  generalize draft.sign payer beforehand blockhash = result at houtcome ⊢
  cases houtcome with
  | uncounted hnot => exact iff_of_false nofun fun h => hnot h.1.toCountable
  | tooMany _ hnot => exact iff_of_false nofun fun h => hnot h.2.1
  | unwritten _ _ hnot => exact iff_of_false nofun fun h => hnot h.1
  | missing _ _ hnot => exact iff_of_false nofun fun h => hnot h.2.2
  | signed hlimits hall hsigned =>
    exact iff_of_true ⟨_, rfl⟩ ⟨hlimits, hall, hsigned.2.2.1.covers⟩

/-- A key too many is complained about wherever there is a message. -/
theorem sign_eq_unexpectedSigner_iff :
    draft.sign payer beforehand blockhash = .error .unexpectedSigner ↔
      Countable payer.publicKey (beforehand ++ draft.instructions) ∧
        ¬ draft.NoneTooMany payer beforehand := by
  have houtcome := draft.sign_outcome payer beforehand blockhash
  generalize draft.sign payer beforehand blockhash = result at houtcome ⊢
  cases houtcome with
  | uncounted hnot => exact iff_of_false nofun fun h => hnot h.1
  | tooMany hcountable hmany => exact iff_of_true rfl ⟨hcountable, hmany⟩
  | unwritten _ hall _ => exact iff_of_false nofun fun h => h.2 hall
  | missing _ hall _ => exact iff_of_false nofun fun h => h.2 hall
  | signed _ hall _ => exact iff_of_false nofun fun h => h.2 hall

theorem sign_eq_missingSigner_iff :
    draft.sign payer beforehand blockhash = .error .missingSigner ↔
      Limits payer.publicKey (beforehand ++ draft.instructions) ∧
        draft.NoneTooMany payer beforehand ∧ ¬ draft.NoneMissing payer beforehand := by
  have houtcome := draft.sign_outcome payer beforehand blockhash
  generalize draft.sign payer beforehand blockhash = result at houtcome ⊢
  cases houtcome with
  | uncounted hnot => exact iff_of_false nofun fun h => hnot h.1.toCountable
  | tooMany _ hnot => exact iff_of_false nofun fun h => hnot h.2.1
  | unwritten _ _ hnot => exact iff_of_false nofun fun h => hnot h.1
  | missing hlimits hall hmissing => exact iff_of_true rfl ⟨hlimits, hall, hmissing⟩
  | signed _ _ hsigned => exact iff_of_false nofun fun h => h.2.2 hsigned.2.2.1.covers

theorem sign_eq_beyond_keys_iff :
    draft.sign payer beforehand blockhash = .error (.beyond .keys) ↔
      ¬ Countable payer.publicKey (beforehand ++ draft.instructions) := by
  have houtcome := draft.sign_outcome payer beforehand blockhash
  generalize draft.sign payer beforehand blockhash = result at houtcome ⊢
  cases houtcome with
  | uncounted hnot => exact iff_of_true rfl hnot
  | tooMany hcountable _ => exact iff_of_false nofun fun h => h hcountable
  | unwritten hcountable _ _ => exact iff_of_false nofun fun h => h hcountable
  | missing hlimits _ _ => exact iff_of_false nofun fun h => h hlimits.toCountable
  | signed hlimits _ _ => exact iff_of_false nofun fun h => h hlimits.toCountable

theorem sign_eq_beyond_lengths_iff :
    draft.sign payer beforehand blockhash = .error (.beyond .lengths) ↔
      Countable payer.publicKey (beforehand ++ draft.instructions) ∧
        draft.NoneTooMany payer beforehand ∧
        ¬ Limits payer.publicKey (beforehand ++ draft.instructions) := by
  have houtcome := draft.sign_outcome payer beforehand blockhash
  generalize draft.sign payer beforehand blockhash = result at houtcome ⊢
  cases houtcome with
  | uncounted hnot => exact iff_of_false nofun fun h => hnot h.1
  | tooMany _ hnot => exact iff_of_false nofun fun h => hnot h.2.1
  | unwritten hcountable hall hnot => exact iff_of_true rfl ⟨hcountable, hall, hnot⟩
  | missing hlimits _ _ => exact iff_of_false nofun fun h => h.2.2 hlimits
  | signed hlimits _ _ => exact iff_of_false nofun fun h => h.2.2 hlimits

/-- **Beyond the limits the program stops**, if every key at hand is wanted. -/
theorem exists_sign_beyond_iff (hall : draft.NoneTooMany payer beforehand) :
    (∃ excess, draft.sign payer beforehand blockhash = .error (.beyond excess)) ↔
      ¬ Limits payer.publicKey (beforehand ++ draft.instructions) := by
  constructor
  · rintro ⟨excess, h⟩ hlimits
    cases excess with
    | keys => exact sign_eq_beyond_keys_iff.1 h hlimits.toCountable
    | lengths => exact (sign_eq_beyond_lengths_iff.1 h).2.2 hlimits
  · intro hnot
    by_cases hcountable : Countable payer.publicKey (beforehand ++ draft.instructions)
    · exact ⟨.lengths, sign_eq_beyond_lengths_iff.2 ⟨hcountable, hall, hnot⟩⟩
    · exact ⟨.keys, sign_eq_beyond_keys_iff.2 hcountable⟩

/-! ## What is signed -/

variable {t : Transaction}

/-- Signing succeeds with a key at hand for every key that the message wants, and signs the bytes of
the message with these. -/
theorem signedBy_of_sign (h : draft.sign payer beforehand blockhash = .ok t) :
    ∃ found bytes, draft.SignedBy payer beforehand blockhash found bytes t := by
  have houtcome := draft.sign_outcome payer beforehand blockhash
  rw [h] at houtcome
  cases houtcome with
  | signed _ _ hsigned => exact ⟨_, _, hsigned⟩

/-- What is signed is the message of the draft. -/
theorem message_of_sign (h : draft.sign payer beforehand blockhash = .ok t) :
    draft.message payer.publicKey beforehand blockhash = some t.message := by
  obtain ⟨_, _, hsigned⟩ := signedBy_of_sign h
  exact hsigned.1

/-- The keys that a signed message wants are those that the draft wants. -/
theorem signerKeys_of_sign (h : draft.sign payer beforehand blockhash = .ok t) :
    t.message.signerKeys = draft.wanted payer beforehand :=
  Message.signerKeys_of_compile (message_of_sign h)

/-- **A signed transaction can be written**, and its bytes are what is written. -/
theorem transaction_of_sign (h : draft.sign payer beforehand blockhash = .ok t) :
    Wire.Writer.transaction t = some (Wire.transaction t) := by
  obtain ⟨found, bytes, hmessage, hbytes, hin, hsignatures⟩ := signedBy_of_sign h
  have hcount : t.signatures.length < 65536 := by
    have hcountable := Message.exists_compile_iff.1 ⟨_, hmessage⟩
    rw [hsignatures, List.length_map, ← hin.length_eq]
    exact Nat.lt_trans hcountable.signers (by decide)
  obtain ⟨signatures, hlist⟩ :=
    Option.isSome_iff_exists.1 (Wire.Writer.isSome_octets_list.2 hcount)
  have hwritten : (Wire.Writer.transaction t).isSome := by
    simp [Wire.Writer.transaction, hlist, hbytes]
  rw [Wire.transaction, Option.getD_of_ne_none (Option.isSome_iff_ne_none.1 hwritten)]

end Draft

end DomainAuction
