import DomainAuction.Proofs.Transaction.Keys
import DomainAuction.Transaction.Wire

/-!
# Limits — what the format of a message has room for

A header counts keys in one byte each, and a list stands behind its length in 16 bits. Instructions
that keep to these limits have a message, and their message has bytes. For others there is no
message, or none that can be written.
-/

namespace DomainAuction

namespace Message

variable {payer : Address} {is : List Instruction} {blockhash : Digest} {m : Message}

/-! ## Messages -/

theorem toNat_ofNat_count {n : Nat} (h : n < 256) : (UInt8.ofNat n).toNat = n := by
  rw [UInt8.toNat_ofNat', Nat.mod_eq_of_lt h]

theorem count?_eq_some_iff {n : Nat} {b : UInt8} : count? n = some b ↔ b.toNat = n := by
  unfold count?
  split
  · next hroom =>
    rw [Option.some.injEq, ← UInt8.toNat_inj, toNat_ofNat_count hroom, eq_comm]
  · next hlarge =>
    refine iff_of_false nofun fun hb => hlarge ?_
    rw [← hb]
    exact b.toNat_lt

/-- A byte can count the keys that sign, and those that neither sign nor are written. -/
structure Countable (payer : Address) (is : List Instruction) : Prop where
  signers : (requiredSigners payer is).length < 256
  read : (readKeys payer is).length < 256

/-- Up to 255 keys can be counted, whatever is done with them. -/
theorem countable_of_length_keys (hroom : (keys payer is).length ≤ 255) : Countable payer is := by
  have hlengths : (requiredSigners payer is).length + (readKeys payer is).length
      ≤ (keys payer is).length := by
    simp only [keys, List.length_append]
    omega
  exact ⟨by omega, by omega⟩

theorem header?_eq_some_iff {h : MessageHeader} : header? payer is = some h ↔
    h.requiredSignatures.toNat = (requiredSigners payer is).length ∧
    h.readonlySigned.toNat = (readSigners payer is).length ∧
    h.readonlyUnsigned.toNat = (readKeys payer is).length := by
  obtain ⟨required, readonly, unsigned⟩ := h
  simp only [header?, bind, pure, Option.bind_eq_some_iff, count?_eq_some_iff, Option.some.injEq,
    MessageHeader.mk.injEq]
  constructor
  · rintro ⟨_, hr, _, hs, _, hu, rfl, rfl, rfl⟩
    exact ⟨hr, hs, hu⟩
  · rintro ⟨hr, hs, hu⟩
    exact ⟨_, hr, _, hs, _, hu, rfl, rfl, rfl⟩

/-- **What a compiled message consists of.** -/
theorem compile_eq_some_iff : compile payer is blockhash = some m ↔
    header? payer is = some m.header ∧ m.format = .legacy ∧ m.accountKeys = keys payer is ∧
      m.blockhash = blockhash ∧ m.instructions = is.map (compileInstruction (keys payer is)) := by
  obtain ⟨format, header, accountKeys, digest, instructions⟩ := m
  simp only [compile, bind, pure, Option.bind_eq_some_iff, Option.some.injEq, Message.mk.injEq]
  constructor
  · rintro ⟨_, hheader, rfl, rfl, rfl, rfl, rfl⟩
    exact ⟨hheader, rfl, rfl, rfl, rfl⟩
  · rintro ⟨hheader, rfl, rfl, rfl, rfl⟩
    exact ⟨_, hheader, rfl, rfl, rfl, rfl, rfl⟩

theorem accountKeys_of_compile (h : compile payer is blockhash = some m) :
    m.accountKeys = keys payer is :=
  (compile_eq_some_iff.1 h).2.2.1

/-- A compiled message wants the required signers to sign. -/
theorem signerKeys_of_compile (h : compile payer is blockhash = some m) :
    m.signerKeys = requiredSigners payer is := by
  obtain ⟨hheader, -, hkeys, -, -⟩ := compile_eq_some_iff.1 h
  rw [signerKeys, (header?_eq_some_iff.1 hheader).1, hkeys, keys, List.take_left]

/-- **Instructions have a message exactly if its header can count the keys.** -/
theorem exists_compile_iff :
    (∃ m, compile payer is blockhash = some m) ↔ Countable payer is := by
  constructor
  · rintro ⟨m, h⟩
    obtain ⟨hsigners, -, hread⟩ := header?_eq_some_iff.1 (compile_eq_some_iff.1 h).1
    exact ⟨hsigners ▸ m.header.requiredSignatures.toNat_lt,
      hread ▸ m.header.readonlyUnsigned.toNat_lt⟩
  · rintro ⟨hsigners, hread⟩
    have hreadSigners : (readSigners payer is).length < 256 := by
      rw [requiredSigners, List.length_append] at hsigners
      exact Nat.lt_of_le_of_lt (Nat.le_add_left _ _) hsigners
    have hheader := (header?_eq_some_iff (h := ⟨_, _, _⟩)).2
      ⟨toNat_ofNat_count hsigners, toNat_ofNat_count hreadSigners, toNat_ofNat_count hread⟩
    exact ⟨⟨_, _, _, _, _⟩, compile_eq_some_iff.2 ⟨hheader, rfl, rfl, rfl, rfl⟩⟩

end Message

/-! ## Bytes -/

namespace Wire.Writer

variable {α : Type} {write : α → Option Bytes} {xs : List α}

theorem isSome_compact {n : Nat} : (compact n).isSome ↔ n < 65536 := by
  unfold compact
  split
  · exact iff_of_true rfl (by omega)
  · split
    · exact iff_of_true rfl (by omega)
    · split
      · exact iff_of_true rfl (by omega)
      · exact iff_of_false Bool.false_ne_true (by omega)

theorem isSome_bytes {b : Bytes} : (bytes b).isSome ↔ b.length < 65536 := by
  rw [← isSome_compact, bytes]
  cases compact b.length <;> rfl

theorem isSome_mapM : (xs.mapM write).isSome ↔ ∀ x ∈ xs, (write x).isSome := by
  induction xs with
  | nil => simp
  | cons x xs ih =>
    rw [List.forall_mem_cons, ← ih, List.mapM_cons]
    cases write x with
    | none => simp
    | some b => cases xs.mapM write <;> simp

/-- **A list can be written if its length has room and its entries can be written.** -/
theorem isSome_list :
    (list write xs).isSome ↔ xs.length < 65536 ∧ ∀ x ∈ xs, (write x).isSome := by
  rw [← isSome_compact, ← isSome_mapM, list]
  cases compact xs.length with
  | none => simp
  | some b => cases xs.mapM write <;> simp

theorem isSome_octets_list {n : Nat} {as : List (Octets n)} :
    (list octets as).isSome ↔ as.length < 65536 := by
  rw [isSome_list]
  exact and_iff_left fun _ _ => rfl

theorem isSome_instruction {i : CompiledInstruction} :
    (instruction i).isSome ↔ i.accounts.length < 65536 ∧ i.data.length < 65536 := by
  rw [← isSome_bytes, ← isSome_bytes, instruction]
  cases bytes i.accounts with
  | none => simp
  | some b => cases bytes i.data <;> simp

theorem isSome_messageBody {m : Message} : (messageBody m).isSome ↔
    m.accountKeys.length < 65536 ∧ m.instructions.length < 65536 ∧
      ∀ i ∈ m.instructions, i.accounts.length < 65536 ∧ i.data.length < 65536 := by
  simp only [← isSome_octets_list, ← isSome_instruction, ← isSome_list, messageBody]
  cases list octets m.accountKeys with
  | none => simp
  | some b => cases list instruction m.instructions <;> simp

end Wire.Writer

/-! ## Instructions within the limits -/

/-- Instructions that are few, with few accounts and short data each. -/
structure Instruction.Short (is : List Instruction) : Prop where
  count : is.length < 65536
  lists : ∀ i ∈ is, i.accounts.length < 65536 ∧ i.data.length < 65536

namespace Message

open Wire (Writer.message)

variable {payer : Address} {is : List Instruction} {blockhash : Digest} {m : Message}

/-- What the format has room for: a byte for each count of keys, and 16 bits for the length of each
list. -/
structure Limits (payer : Address) (is : List Instruction) : Prop extends Countable payer is where
  keys : (keys payer is).length < 65536
  short : Instruction.Short is

/-- Up to 255 keys are within the limits, whatever is done with them. -/
theorem limits_of_length_keys (hroom : (keys payer is).length ≤ 255)
    (hshort : Instruction.Short is) : Limits payer is :=
  ⟨countable_of_length_keys hroom, by omega, hshort⟩

/-- **A compiled message can be written exactly within the limits.** -/
theorem isSome_message_iff (h : compile payer is blockhash = some m) :
    (Writer.message m).isSome ↔ Limits payer is := by
  obtain ⟨-, hformat, hkeys, -, hinstructions⟩ := compile_eq_some_iff.1 h
  have hcountable := exists_compile_iff.1 ⟨m, h⟩
  rw [Writer.message, hformat]
  simp only [Wire.Writer.isSome_messageBody, hkeys, hinstructions, List.length_map,
    List.forall_mem_map, compileInstruction]
  constructor
  · rintro ⟨hkeys, hcount, hlists⟩
    exact ⟨hcountable, hkeys, hcount, hlists⟩
  · rintro ⟨-, hkeys, hcount, hlists⟩
    exact ⟨hkeys, hcount, hlists⟩

end Message

end DomainAuction
