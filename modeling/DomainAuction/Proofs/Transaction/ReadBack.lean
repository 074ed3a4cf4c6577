import DomainAuction.Proofs.Operation.Building
import DomainAuction.Proofs.Transaction.Payloads
import DomainAuction.Proofs.Transaction.Signing

/-!
# ReadBack — a transaction is read back as it was meant

Operations are built into instructions, gathered into a draft, put behind other instructions and
compiled to indexes. Reading the payloads of the program out of the signed transaction undoes all of
this: each operation is found at its place with what it meant, and nothing else is found but what the
instructions in front ask of the same program.
-/

namespace DomainAuction

variable {d : Deployment} {payer : Address} {is : List Instruction} {blockhash : Digest}

/-! ## Compiled instructions -/

namespace Message

variable {program : Address} {version : ProtocolVersion} {place : Nat} {p : Payload} {m : Message}

/-- **Compiling loses no payload and moves none**, while the indexes have room for all keys. -/
theorem mem_payloads_of_compile (h : compile payer is blockhash = some m)
    (hroom : m.accountKeys.length ≤ 256) :
    (place, p) ∈ m.payloads program version
      ↔ ∃ i, is[place]? = some i ∧ i.programId = program
        ∧ Payload.decode i.data version = .ok p := by
  obtain ⟨-, -, hkeys, -, hinstructions⟩ := compile_eq_some_iff.1 h
  rw [hkeys] at hroom
  -- the program of an instruction is the key that its index leads to
  have hprogram : ∀ i ∈ is, (keys payer is)[(compileInstruction (keys payer is)
      i).programIndex.toNat]? = some i.programId := by
    intro i hi
    exact getElem?_indexOf (mem_keys_iff.2 (.inr ⟨i, hi, .inl rfl⟩)) hroom
  rw [mem_payloads_iff, hkeys, hinstructions]
  constructor
  · rintro ⟨c, hc, hindex, hdecode⟩
    rw [List.getElem?_map, Option.map_eq_some_iff] at hc
    obtain ⟨i, hi, rfl⟩ := hc
    rw [hprogram i (List.mem_of_getElem? hi)] at hindex
    exact ⟨i, hi, Option.some.inj hindex, hdecode⟩
  · rintro ⟨i, hi, rfl, hdecode⟩
    refine ⟨_, by rw [List.getElem?_map, hi]; rfl, ?_, hdecode⟩
    exact hprogram i (List.mem_of_getElem? hi)

end Message

/-! ## Gathering operations -/

/-- What was built is for the program of the deployment, and its data mean the payload. -/
theorem Operation.decode_of_build {op : Operation} {i : Instruction} (h : op.build d = .ok i)
    (htexts : ∀ s ∈ op.payload.texts, (utf8 s).length < 2 ^ 32) :
    i.programId = d.programId ∧ Payload.decode i.data d.version = .ok op.payload := by
  obtain ⟨hprogram, -, hdata, hsupported⟩ := of_build h
  rw [hdata]
  exact ⟨hprogram, Payload.decode_encode hsupported htexts⟩

namespace Draft

/-- A draft that is put together from the instructions of some operations, in their order. Its keys
do not matter. -/
inductive Gathers (d : Deployment) : List Operation → Draft → Prop
  | new (signers : List SigningKey) {ops : List Operation} {built : List Instruction} :
    List.Forall₂ (fun op i => op.build d = .ok i) ops built → Gathers d ops ⟨signers, built⟩
  | ofInstruction {op : Operation} {i : Instruction} :
    op.build d = .ok i → Gathers d [op] (.ofInstruction i)
  | append {ops more : List Operation} {a b : Draft} :
    Gathers d ops a → Gathers d more b → Gathers d (ops ++ more) (a.append b)

variable {ops : List Operation} {draft : Draft}

/-- However a draft was put together, its instructions are those of the operations. -/
theorem Gathers.built (h : Gathers d ops draft) :
    List.Forall₂ (fun op i => op.build d = .ok i) ops draft.instructions := by
  induction h with
  | new signers hbuilt => exact hbuilt
  | ofInstruction hbuilt => exact .cons hbuilt .nil
  | append _ _ iha ihb => exact List.rel_append iha ihb

/-- Place by place, what a draft asks of the program is what its operations mean. -/
theorem getElem?_of_built {built : List Instruction} {k : Nat} {p : Payload}
    (h : List.Forall₂ (fun op i => op.build d = .ok i) ops built)
    (htexts : ∀ op ∈ ops, ∀ s ∈ op.payload.texts, (utf8 s).length < 2 ^ 32) :
    (∃ i, built[k]? = some i ∧ i.programId = d.programId
        ∧ Payload.decode i.data d.version = .ok p)
      ↔ ∃ op, ops[k]? = some op ∧ p = op.payload := by
  induction h generalizing k with
  | nil => simp
  | @cons op i ops built hbuild _ ih =>
    rw [List.forall_mem_cons] at htexts
    obtain ⟨hprogram, hdecode⟩ := Operation.decode_of_build hbuild htexts.1
    cases k with
    | zero => simp [hprogram, hdecode, eq_comm]
    | succ k => simpa using ih htexts.2

/-- **A signed transaction is read back as it was meant.** Its payloads are those of the operations,
each at its place behind the other instructions, and whatever these ask of the same program. They
come in the order of their places, and the first key is the payer's. -/
theorem payloads_of_sign {payer : SigningKey} {beforehand : List Instruction} {t : Transaction}
    (hdraft : Gathers d ops draft)
    (htexts : ∀ op ∈ ops, ∀ s ∈ op.payload.texts, (utf8 s).length < 2 ^ 32)
    (hsign : draft.sign payer beforehand blockhash = .ok t)
    (hroom : t.message.accountKeys.length ≤ 255) :
    (∀ place p, (place, p) ∈ t.message.payloads d.programId d.version ↔
      (∃ k op, ops[k]? = some op ∧ place = beforehand.length + k ∧ p = op.payload) ∨
      (∃ i, beforehand[place]? = some i ∧ i.programId = d.programId
        ∧ Payload.decode i.data d.version = .ok p)) ∧
    ((t.message.payloads d.programId d.version).Pairwise fun a b => a.1 < b.1) ∧
    t.message.accountKeys.head? = some payer.publicKey := by
  have hmessage : Message.compile payer.publicKey (beforehand ++ draft.instructions) blockhash
      = some t.message := message_of_sign hsign
  refine ⟨fun place p => ?_, Message.payloads_ordered, ?_⟩
  · rw [Message.mem_payloads_of_compile hmessage (Nat.le_succ_of_le hroom)]
    -- a place is in front of the draft or in it
    obtain hlt | ⟨k, rfl⟩ : place < beforehand.length ∨ ∃ k, place = beforehand.length + k := by
      obtain hlt | hle := Nat.lt_or_ge place beforehand.length
      · exact .inl hlt
      · exact .inr ⟨place - beforehand.length, by omega⟩
    · rw [List.getElem?_append_left hlt]
      constructor
      · exact .inr
      · rintro (⟨k, op, -, rfl, -⟩ | h)
        · omega
        · exact h
    · rw [List.getElem?_append_right (Nat.le_add_right _ _), Nat.add_sub_cancel_left,
        getElem?_of_built hdraft.built htexts, List.getElem?_eq_none (Nat.le_add_right _ _)]
      constructor
      · rintro ⟨op, hop, hp⟩
        exact .inl ⟨k, op, hop, rfl, hp⟩
      · rintro (⟨k', op, hop, hk, hp⟩ | ⟨i, hi, -⟩)
        · obtain rfl : k = k' := Nat.add_left_cancel hk
          exact ⟨op, hop, hp⟩
        · cases hi
  · rw [Message.accountKeys_of_compile hmessage]
    exact Message.head?_keys

/-- Two operations of the main deployment become instructions; an admin signs the second one. -/
theorem build_init_takeBack (admin : Address) :
    ∃ a b, (Operation.init ⟨.ofNat 32 1, .ofNat 32 2, .ofNat 32 3, .ofNat 32 4⟩ 7).build .mainnet
        = .ok a ∧
      (Operation.takeBack ⟨admin, .ofNat 32 5, .ofNat 32 6, .ofNat 32 7, .ofNat 32 8⟩).build .mainnet
        = .ok b ∧
      (a.signers = [] ∧ a.accounts.length = 4 ∧ a.data.length = 2) ∧
      b.signers = [admin] ∧ b.accounts.length = 6 ∧ b.data.length = 1 :=
  ⟨_, _, rfl, rfl, ⟨rfl, rfl, rfl⟩, rfl, rfl, rfl⟩

/-- Behind an instruction to another program, the wallet of an admin signs two operations, which are
read back at places one and two. -/
theorem payloads_of_sign_init_takeBack :
    ∃ (draft : Draft) (t : Transaction),
      draft.sign ⟨.zero 32⟩ [⟨systemProgram, [], []⟩] (.zero 32) = .ok t ∧
      (1, .init 7) ∈ t.message.payloads Deployment.mainnet.programId .current ∧
      (2, .takeBack) ∈ t.message.payloads Deployment.mainnet.programId .current := by
  obtain ⟨a, b, ha, hb, ⟨hsigna, hkeysa, hdataa⟩, hsignb, hkeysb, hdatab⟩ :=
    build_init_takeBack (SigningKey.publicKey ⟨.zero 32⟩)
  have hgathers := (Gathers.ofInstruction ha).append (.ofInstruction hb)
  generalize hdraft : (Draft.ofInstruction a).append (.ofInstruction b) = draft at hgathers
  have hinstructions : draft.instructions = [a, b] := by rw [← hdraft]; rfl
  have hown : draft.keysAtHand ⟨.zero 32⟩ = [⟨.zero 32⟩] := by rw [← hdraft]; rfl
  have hother : Instruction.signers ⟨systemProgram, [], []⟩ = [] := rfl
  have hkeys : (Message.keys (SigningKey.publicKey ⟨.zero 32⟩)
      ([⟨systemProgram, [], []⟩] ++ draft.instructions)).length ≤ 255 := by
    refine Nat.le_trans Message.length_keys_le ?_
    simp [hinstructions, KeyTable.keysOf, hkeysa, hkeysb]
  have hshort : Instruction.Short ([⟨systemProgram, [], []⟩] ++ draft.instructions) :=
    ⟨by simp [hinstructions], by simp [hinstructions, hkeysa, hkeysb, hdataa, hdatab]⟩
  have hwanted : ∀ x, x ∈ draft.wanted ⟨.zero 32⟩ [⟨systemProgram, [], []⟩]
      ↔ x = SigningKey.publicKey ⟨.zero 32⟩ := by
    intro x
    rw [mem_wanted_iff]
    simp [hinstructions, hother, hsigna, hsignb]
  obtain ⟨t, hsign⟩ : ∃ t, draft.sign ⟨.zero 32⟩ [⟨systemProgram, [], []⟩] (.zero 32) = .ok t :=
    exists_sign_iff.2 ⟨Message.limits_of_length_keys hkeys hshort,
      by simp [NoneTooMany, hown, hwanted],
      fun x hx => ⟨⟨.zero 32⟩, by simp [hown], ((hwanted x).1 hx).symm⟩⟩
  have hroom : t.message.accountKeys.length ≤ 255 := by
    rw [Message.accountKeys_of_compile (message_of_sign hsign)]
    exact hkeys
  have hread := (payloads_of_sign hgathers (by simp [Operation.payload, Payload.texts]) hsign
    hroom).1
  exact ⟨draft, t, hsign, (hread 1 _).2 (.inl ⟨0, _, rfl, rfl, rfl⟩),
    (hread 2 _).2 (.inl ⟨1, _, rfl, rfl, rfl⟩)⟩

end Draft

end DomainAuction
