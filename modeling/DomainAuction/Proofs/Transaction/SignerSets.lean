import DomainAuction.Proofs.Transaction.DistinctKeys
import DomainAuction.Proofs.Transaction.Signing
import Mathlib.Data.List.Forall2
import Mathlib.Data.Set.Card

/-!
# SignerSets — what signing depends on

A draft can be put together in many ways, with its keys in any order and any of them given more than
once. Signing sees only which addresses have a key, which addresses have to sign, and what the
instructions are one after another.
-/

namespace DomainAuction

namespace SigningKey

variable {keys : List SigningKey}

/-- The addresses of some keys. -/
def addresses (keys : List SigningKey) : Set Address :=
  {a | Covers keys a}

/-- Among these keys, the address decides what is signed. -/
def SignAlike (keys : List SigningKey) : Prop :=
  ∀ k ∈ keys, ∀ l ∈ keys, k.publicKey = l.publicKey → k.sign = l.sign

@[simp] theorem addresses_cons {key : SigningKey} :
    addresses (key :: keys) = insert key.publicKey (addresses keys) := by
  ext a
  simp [addresses, eq_comm]

@[simp] theorem addresses_nil : addresses [] = ∅ := by
  ext a
  simp [addresses]

end SigningKey

/-- The accounts that some of the instructions want to sign. -/
def Instruction.flagged (is : List Instruction) : Set Address :=
  {a | ∃ i ∈ is, a ∈ i.signers}

/-- A transaction with one signature for each key that its message wants to sign, in their order.
Each signs the bytes of the message with one of some keys. -/
def Transaction.SignedWith (t : Transaction) (keys : List SigningKey) : Prop :=
  ∃ bytes, Wire.Writer.message t.message = some bytes ∧
    List.Forall₂ (fun a s => ∃ k ∈ keys, k.publicKey = a ∧ k.sign bytes = s)
      t.message.signerKeys t.signatures

/-- **The signatures follow from the message and the set of keys**, as long as the keys of one
address sign alike. -/
theorem Transaction.SignedWith.unique {t u : Transaction} {keys others : List SigningKey}
    (ht : t.SignedWith keys) (hu : u.SignedWith others) (hmessage : u.message = t.message)
    (hkeys : ∀ k, k ∈ others ↔ k ∈ keys) (halike : SigningKey.SignAlike keys) : u = t := by
  obtain ⟨signatures, message⟩ := u
  obtain rfl : message = t.message := hmessage
  obtain ⟨bytes, hbytes, ht⟩ := ht
  obtain ⟨bytes', hbytes', hu⟩ := hu
  obtain rfl : bytes = bytes' := Option.some.inj (hbytes.symm.trans hbytes')
  -- an address may have several keys, but they all sign alike
  have hunique : Relator.RightUnique fun (a : Address) (s : Signature) =>
      ∃ k ∈ keys, k.publicKey = a ∧ k.sign bytes = s := by
    rintro a _ _ ⟨k, hk, hka, rfl⟩ ⟨l, hl, hla, rfl⟩
    rw [halike k hk l hl (hka.trans hla.symm)]
  simp only [hkeys] at hu
  rw [hunique.forall₂ hu ht]

namespace Draft

open SigningKey (SignAlike)

variable {draft other : Draft} {payer : SigningKey} {beforehand before : List Instruction}
variable {blockhash : Digest} {t : Transaction}

/-- Every wanted key signs, and no other. -/
theorem signedWith_of_sign (h : draft.sign payer beforehand blockhash = .ok t) :
    t.SignedWith (draft.keysAtHand payer) := by
  obtain ⟨found, bytes, -, hbytes, hin, hsignatures⟩ := signedBy_of_sign h
  refine ⟨bytes, hbytes, ?_⟩
  rw [signerKeys_of_sign h, hsignatures]
  refine List.forall₂_map_right_iff.2 (hin.imp fun a k hfind => ?_)
  obtain ⟨hk, hka⟩ := SigningKey.mem_of_find hfind
  exact ⟨k, hk, hka, rfl⟩

/-- The payer is the first of the keys at hand and its key is wanted first, so its signature is the
first, too. -/
theorem head?_signatures_of_sign (h : draft.sign payer beforehand blockhash = .ok t) :
    ∃ bytes, Wire.Writer.message t.message = some bytes ∧
      t.signatures.head? = some (payer.sign bytes) := by
  obtain ⟨found, bytes, -, hbytes, hin, hsignatures⟩ := signedBy_of_sign h
  refine ⟨bytes, hbytes, ?_⟩
  rw [wanted, Message.requiredSigners, List.cons_append] at hin
  obtain ⟨k, found, hfind, -, rfl⟩ := List.forall₂_cons_left_iff.1 hin
  have hpayer : some payer = some k := (SigningKey.find_cons_self payer _).symm.trans hfind
  obtain rfl := Option.some.inj hpayer
  rw [hsignatures]
  rfl

/-! ## Two runs -/

theorem noneTooMany_congr
    (hinstructions : before ++ other.instructions = beforehand ++ draft.instructions)
    (hkeys : ∀ k, k ∈ other.keysAtHand payer ↔ k ∈ draft.keysAtHand payer) :
    other.NoneTooMany payer before ↔ draft.NoneTooMany payer beforehand := by
  simp only [NoneTooMany, wanted, hinstructions, hkeys]

theorem noneMissing_congr
    (hinstructions : before ++ other.instructions = beforehand ++ draft.instructions)
    (hkeys : ∀ k, k ∈ other.keysAtHand payer ↔ k ∈ draft.keysAtHand payer) :
    other.NoneMissing payer before ↔ draft.NoneMissing payer beforehand := by
  simp only [NoneMissing, SigningKey.Covers, wanted, hinstructions, hkeys]

/-- **Two runs.** With the same instructions one after another and the same set of keys, signing
ends in the same way, and with the same transaction. -/
theorem sign_congr (hinstructions : before ++ other.instructions = beforehand ++ draft.instructions)
    (hkeys : ∀ k, k ∈ other.keysAtHand payer ↔ k ∈ draft.keysAtHand payer)
    (halike : SignAlike (draft.keysAtHand payer)) :
    other.sign payer before blockhash = draft.sign payer beforehand blockhash := by
  have hmany := noneTooMany_congr hinstructions hkeys
  have hmissing := noneMissing_congr hinstructions hkeys
  have houtcome := draft.sign_outcome payer beforehand blockhash
  generalize hsign : draft.sign payer beforehand blockhash = result at houtcome
  -- what is asked in turn has the same answers in both runs
  cases houtcome with
  | uncounted hnot =>
    rw [sign_eq_beyond_keys_iff, hinstructions]
    exact hnot
  | tooMany hcountable hnot =>
    rw [sign_eq_unexpectedSigner_iff, hinstructions, hmany]
    exact ⟨hcountable, hnot⟩
  | unwritten hcountable hall hnot =>
    rw [sign_eq_beyond_lengths_iff, hinstructions, hmany]
    exact ⟨hcountable, hall, hnot⟩
  | missing hlimits hall hnot =>
    rw [sign_eq_missingSigner_iff, hinstructions, hmany, hmissing]
    exact ⟨hlimits, hall, hnot⟩
  | @signed _ _ t _ _ _ =>
    obtain ⟨u, hu⟩ : ∃ u, other.sign payer before blockhash = .ok u := by
      rw [exists_sign_iff, hinstructions, hmany, hmissing]
      exact exists_sign_iff.1 ⟨t, hsign⟩
    have hsame : u.message = t.message := by
      have hmessage := message_of_sign hu
      rw [message, hinstructions] at hmessage
      exact Option.some.inj (hmessage.symm.trans (message_of_sign hsign))
    rw [hu, (signedWith_of_sign hsign).unique (signedWith_of_sign hu) hsame hkeys halike]

end Draft

/-! ## Drafts as they are put together -/

/-- The ways to put a draft together: from its parts, from one instruction, and from two drafts. -/
inductive Assembly where
  | new (signers : List SigningKey) (instructions : List Instruction)
  | ofInstruction (i : Instruction)
  | extend (first second : Assembly)

namespace Assembly

open SigningKey (addresses SignAlike)

def draft : Assembly → Draft
  | new signers instructions => ⟨signers, instructions⟩
  | ofInstruction i => .ofInstruction i
  | extend first second => first.draft.append second.draft

/-- The keys that were put in, one after another. -/
def signers : Assembly → List SigningKey
  | new signers _ => signers
  | ofInstruction _ => []
  | extend first second => first.signers ++ second.signers

/-- The instructions that were put in, one after another. -/
def instructions : Assembly → List Instruction
  | new _ instructions => instructions
  | ofInstruction i => [i]
  | extend first second => first.instructions ++ second.instructions

theorem draft_eq (a : Assembly) : a.draft = ⟨a.signers, a.instructions⟩ := by
  induction a with
  | new signers instructions => rfl
  | ofInstruction i => rfl
  | extend first second ihFirst ihSecond =>
    rw [draft, ihFirst, ihSecond]
    rfl

theorem keysAtHand_draft (a : Assembly) (payer : SigningKey) :
    a.draft.keysAtHand payer = payer :: a.signers := by
  rw [draft_eq, Draft.keysAtHand]

/-- The addresses that have a key. -/
def given (a : Assembly) (payer : SigningKey) : Set Address :=
  insert payer.publicKey (addresses a.signers)

/-- The addresses that have to sign. -/
def required (a : Assembly) (payer : SigningKey) (beforehand : List Instruction) : Set Address :=
  insert payer.publicKey (Instruction.flagged (beforehand ++ a.instructions))

variable {a : Assembly} {payer : SigningKey} {beforehand : List Instruction} {blockhash : Digest}

theorem addresses_keysAtHand : addresses (a.draft.keysAtHand payer) = a.given payer := by
  rw [keysAtHand_draft, SigningKey.addresses_cons, given]

theorem wanted_draft : a.draft.wanted payer beforehand
    = Message.requiredSigners payer.publicKey (beforehand ++ a.instructions) := by
  rw [draft_eq, Draft.wanted]

theorem mem_wanted_iff {x : Address} :
    x ∈ a.draft.wanted payer beforehand ↔ x ∈ a.required payer beforehand := by
  rw [wanted_draft]
  exact Message.mem_requiredSigners_iff

theorem noneTooMany_iff :
    a.draft.NoneTooMany payer beforehand ↔ a.given payer ⊆ a.required payer beforehand := by
  rw [← addresses_keysAtHand]
  constructor
  · rintro h _ ⟨k, hk, rfl⟩
    exact mem_wanted_iff.1 (h k hk)
  · exact fun h k hk => mem_wanted_iff.2 (h ⟨k, hk, rfl⟩)

theorem noneMissing_iff :
    a.draft.NoneMissing payer beforehand ↔ a.required payer beforehand ⊆ a.given payer := by
  rw [← addresses_keysAtHand]
  constructor
  · exact fun h x hx => h x (mem_wanted_iff.2 hx)
  · exact fun h x hx => h (mem_wanted_iff.1 hx)

/-- A transaction as it is signed: each of the required addresses has one signature by its own key,
and the payer comes first with its key and with its signature. -/
structure Signed (a : Assembly) (payer : SigningKey) (beforehand : List Instruction)
    (blockhash : Digest) (t : Transaction) : Prop where
  message : Message.compile payer.publicKey (beforehand ++ a.instructions) blockhash
    = some t.message
  signerKeys_nodup : t.message.signerKeys.Nodup
  signerKeys_required : {x | x ∈ t.message.signerKeys} = a.required payer beforehand
  signatures : t.SignedWith (payer :: a.signers)
  count : t.signatures.length = (a.required payer beforehand).ncard
  payer_key : t.message.accountKeys.head? = some payer.publicKey
  payer_signature : ∃ bytes, Wire.Writer.message t.message = some bytes ∧
    t.signatures.head? = some (payer.sign bytes)

theorem signed_of_sign {t : Transaction}
    (h : a.draft.sign payer beforehand blockhash = .ok t) :
    a.Signed payer beforehand blockhash t := by
  have hmessage : Message.compile payer.publicKey (beforehand ++ a.instructions) blockhash
      = some t.message := by
    rw [← Draft.message_of_sign h, draft_eq, Draft.message]
  have hkeys : t.message.signerKeys = a.draft.wanted payer beforehand := Draft.signerKeys_of_sign h
  have hwith : t.SignedWith (payer :: a.signers) := by
    rw [← keysAtHand_draft]
    exact Draft.signedWith_of_sign h
  have hnodup : t.message.signerKeys.Nodup := by
    rw [hkeys]
    exact Message.nodup_requiredSigners
  have hset : {x | x ∈ t.message.signerKeys} = a.required payer beforehand := by
    rw [hkeys]
    exact Set.ext fun _ => mem_wanted_iff
  refine ⟨hmessage, hnodup, hset, hwith, ?_, ?_, Draft.head?_signatures_of_sign h⟩
  · -- no key is listed twice, so there are as many signatures as required addresses
    obtain ⟨_, -, hin⟩ := hwith
    rw [← hset, ← List.coe_toFinset, Set.ncard_coe_finset, List.toFinset_card_of_nodup hnodup]
    exact hin.length_eq.symm
  · rw [Message.accountKeys_of_compile hmessage]
    exact Message.head?_keys

/-- **Signing depends on two sets of addresses, and on the instructions one after another.** Let a
byte be able to count the keys of the message, and 16 bits its instructions and their accounts and
data. Signing succeeds exactly when the addresses of the payer's key and of the gathered keys are
those of the payer and of the accounts that some instruction wants to sign. A key too many is
complained about first, and then a key too few. While the keys of one address sign alike, the
outcome is the same for all drafts that are put together from the same set of keys and the same
sequence of instructions. -/
theorem sign_by_sets (a : Assembly) (payer : SigningKey) (beforehand : List Instruction)
    (blockhash : Digest)
    (hroom : (Message.keys payer.publicKey (beforehand ++ a.instructions)).length ≤ 255)
    (hshort : Instruction.Short (beforehand ++ a.instructions)) :
    ((∃ t, a.draft.sign payer beforehand blockhash = .ok t)
      ↔ a.given payer = a.required payer beforehand) ∧
    ((∃ e, a.draft.sign payer beforehand blockhash = .error e ∧
        e.reason = "keypair-pubkey mismatch")
      ↔ ¬ a.given payer ⊆ a.required payer beforehand) ∧
    ((∃ e, a.draft.sign payer beforehand blockhash = .error e ∧ e.reason = "not enough signers")
      ↔ a.given payer ⊆ a.required payer beforehand ∧
        ¬ a.required payer beforehand ⊆ a.given payer) ∧
    (∀ t, a.draft.sign payer beforehand blockhash = .ok t →
      a.Signed payer beforehand blockhash t) ∧
    ∀ (b : Assembly) (before : List Instruction),
      before ++ b.instructions = beforehand ++ a.instructions →
      (∀ k, k ∈ payer :: b.signers ↔ k ∈ payer :: a.signers) →
      SignAlike (payer :: a.signers) →
      b.draft.sign payer before blockhash = a.draft.sign payer beforehand blockhash := by
  have hlimits : Message.Limits payer.publicKey (beforehand ++ a.draft.instructions) := by
    rw [draft_eq]
    exact Message.limits_of_length_keys hroom hshort
  refine ⟨?_, ?_, ?_, fun t => signed_of_sign, fun b before hinstructions hkeys halike => ?_⟩
  · rw [Draft.exists_sign_iff, and_iff_right hlimits, noneTooMany_iff, noneMissing_iff]
    exact Set.Subset.antisymm_iff.symm
  · refine (SigningError.exists_reason_iff (e := .unexpectedSigner) rfl).trans ?_
    rw [Draft.sign_eq_unexpectedSigner_iff, and_iff_right hlimits.toCountable, noneTooMany_iff]
  · refine (SigningError.exists_reason_iff (e := .missingSigner) rfl).trans ?_
    rw [Draft.sign_eq_missingSigner_iff, and_iff_right hlimits, noneTooMany_iff, noneMissing_iff]
  · refine Draft.sign_congr ?_ ?_ ?_
    · rw [draft_eq, draft_eq]
      exact hinstructions
    · simpa only [keysAtHand_draft] using hkeys
    · rwa [keysAtHand_draft]

/-- Two keys have different addresses. -/
theorem publicKey_zero_ne_one :
    SigningKey.publicKey ⟨.zero 32⟩ ≠ SigningKey.publicKey ⟨.ofNat 32 1⟩ := by
  decide +kernel

/-- A payer and a new key sign two instructions. The new key is flagged in the first of them only.
Given in another grouping, with the payer repeated among the keys, they sign the same transaction.
Without the new key a signer is missing, and without the first instruction it is one too many. -/
theorem sign_regrouped :
    ∃ (first second : Instruction) (t : Transaction),
      (new [⟨.ofNat 32 1⟩] [first, second]).draft.sign ⟨.zero 32⟩ [] (.zero 32) = .ok t ∧
      t.signatures.length = 2 ∧
      (extend (new [⟨.ofNat 32 1⟩, ⟨.zero 32⟩] [second]) (new [⟨.ofNat 32 1⟩] [])).draft.sign
        ⟨.zero 32⟩ [first] (.zero 32) = .ok t ∧
      (∃ e, (extend (ofInstruction first) (ofInstruction second)).draft.sign ⟨.zero 32⟩ []
        (.zero 32) = .error e ∧ e.reason = "not enough signers") ∧
      ∃ e, (new [⟨.ofNat 32 1⟩] [second]).draft.sign ⟨.zero 32⟩ [] (.zero 32) = .error e ∧
        e.reason = "keypair-pubkey mismatch" := by
  have hne := publicKey_zero_ne_one
  generalize (⟨.zero 32⟩ : SigningKey) = payer at hne ⊢
  generalize (⟨.ofNat 32 1⟩ : SigningKey) = fresh at hne ⊢
  obtain ⟨first, hfirst, hkeys, hdata⟩ : ∃ first : Instruction,
      first.signers = [payer.publicKey, fresh.publicKey] ∧ first.accounts.length = 2 ∧
        first.data.length = 0 :=
    ⟨⟨.zero 32, [.writesSigned payer.publicKey, .readsSigned fresh.publicKey], []⟩, rfl, rfl, rfl⟩
  obtain ⟨second, hsecond, hkeys', hdata'⟩ : ∃ second : Instruction,
      second.signers = [] ∧ second.accounts.length = 1 ∧ second.data.length = 1 :=
    ⟨⟨.zero 32, [.writes fresh.publicKey], [1]⟩, rfl, rfl, rfl⟩
  have hboth : insert payer.publicKey (Instruction.flagged [first, second])
      = {payer.publicKey, fresh.publicKey} := by
    ext x
    simp [Instruction.flagged, hfirst, hsecond]
  have hnone : Instruction.flagged [second] = ∅ := by
    ext x
    simp [Instruction.flagged, hsecond]
  have halike : SignAlike [payer, fresh] := by
    simp [SignAlike, hne, hne.symm]
  -- together, and in another grouping
  have hroom : (Message.keys payer.publicKey ([] ++ [first, second])).length ≤ 255 := by
    refine Nat.le_trans Message.length_keys_le ?_
    simp [KeyTable.keysOf, hkeys, hkeys']
  have hshort : Instruction.Short ([] ++ [first, second]) :=
    ⟨by simp, by simp [hkeys, hkeys', hdata, hdata']⟩
  obtain ⟨hok, -, -, hsigned, hregrouped⟩ := sign_by_sets (new [fresh] [first, second]) payer []
    (.zero 32) hroom hshort
  have hsets : (new [fresh] [first, second]).given payer
      = (new [fresh] [first, second]).required payer [] := by
    simp [given, required, signers, instructions, hboth]
  obtain ⟨t, ht⟩ := hok.2 hsets
  have hcount : t.signatures.length = 2 := by
    rw [(hsigned t ht).count, ← hsets, given, signers]
    simp [Set.ncard_pair hne]
  have hsame : ∀ k, k ∈ payer :: (extend (new [fresh, payer] [second]) (new [fresh] [])).signers
      ↔ k ∈ payer :: (new [fresh] [first, second]).signers := by
    intro k
    by_cases hk : k = payer <;> simp [signers, hk]
  have hother := (hregrouped _ [first] rfl hsame halike).trans ht
  -- without the new key, and without its use
  have hmissing := (sign_by_sets (extend (ofInstruction first) (ofInstruction second)) payer []
    (.zero 32) hroom hshort).2.2.1.2 (by
      simp [given, required, signers, instructions, hboth, hne.symm])
  have hroom' : (Message.keys payer.publicKey ([] ++ [second])).length ≤ 255 := by
    refine Nat.le_trans Message.length_keys_le ?_
    simp [KeyTable.keysOf, hkeys']
  have hunexpected := (sign_by_sets (new [fresh] [second]) payer [] (.zero 32) hroom'
    ⟨by simp [instructions], by simp [instructions, hkeys', hdata']⟩).2.1.2 (by
      simp [given, required, signers, instructions, hnone, hne.symm])
  exact ⟨first, second, t, ht, hcount, hother, hmissing, hunexpected⟩

end Assembly

end DomainAuction
