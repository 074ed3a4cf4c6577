import DomainAuction.Transaction.Compile
import Mathlib.Data.List.Basic
import Mathlib.Data.List.Perm.Basic
import Mathlib.Tactic.Tauto

/-!
# Keys — which keys a message has, and which of them sign

The table of keys merges what the instructions ask for: a key is in the table if some instruction
names it, and signs if some instruction wants it to. A message lists its payer and all these keys,
the signers first. While an index has room for every key, each index leads back to its key.
-/

namespace DomainAuction

namespace Instruction

/-- The accounts that an instruction wants to sign. -/
def signers (i : Instruction) : List Address :=
  (i.accounts.filter AccountMeta.isSigner).map AccountMeta.address

theorem mem_signers_iff {i : Instruction} {a : Address} :
    a ∈ i.signers ↔ ∃ k ∈ i.accounts, k.isSigner = true ∧ k.address = a := by
  simp [signers, and_assoc]

end Instruction

/-! ## The table of keys -/

namespace KeyTable

variable {right : AccountMeta → Bool} {key : AccountMeta} {table keys : List AccountMeta}
variable {is : List Instruction} {a : Address}

/-- Some key of a list has this address and this right. -/
def Grants (right : AccountMeta → Bool) (keys : List AccountMeta) (a : Address) : Prop :=
  ∃ k ∈ keys, right k = true ∧ k.address = a

/-- Two entries for one address, taken together, have the right if one of them has it. -/
def Merges (right : AccountMeta → Bool) : Prop :=
  ∀ j k : AccountMeta,
    right ⟨j.address, j.isSigner || k.isSigner, j.isWritable || k.isWritable⟩ = (right j || right k)

/-- To be named at all. -/
theorem merges_named : Merges fun _ => true := fun _ _ => rfl

theorem merges_isSigner : Merges AccountMeta.isSigner := fun _ _ => rfl

theorem grants_cons :
    Grants right (key :: keys) a ↔ right key = true ∧ key.address = a ∨ Grants right keys a := by
  simp [Grants]

/-- **Adding a key to the table loses no right and makes up none.** -/
theorem grants_insert (h : Merges right) :
    Grants right (insert key table) a ↔ Grants right (key :: table) a := by
  induction table with
  | nil => rfl
  | cons first rest ih =>
    unfold insert
    split
    · next heq =>
      rw [grants_cons, grants_cons, grants_cons, h, Bool.or_eq_true, heq]
      tauto
    · split
      · rfl
      · rw [grants_cons, ih, grants_cons, grants_cons, grants_cons]
        tauto

theorem countP_insert_le (h : Merges right) :
    (insert key table).countP right ≤ (key :: table).countP right := by
  induction table with
  | nil => exact Nat.le_refl _
  | cons first rest ih =>
    unfold insert
    split
    · rw [List.countP_cons, List.countP_cons, List.countP_cons, h]
      cases right first <;> cases right key <;> simp
    · split
      · exact Nat.le_refl _
      · simp only [List.countP_cons] at ih ⊢
        omega

/-- The table grants what the keys that went into it grant. -/
theorem grants_foldl_insert (h : Merges right) :
    Grants right (keys.foldl (fun table key => insert key table) table) a
      ↔ Grants right table a ∨ Grants right keys a := by
  induction keys generalizing table with
  | nil => simp [Grants]
  | cons key keys ih =>
    rw [List.foldl_cons, ih, grants_insert h, grants_cons, grants_cons]
    tauto

theorem countP_foldl_insert_le (h : Merges right) :
    (keys.foldl (fun table key => insert key table) table).countP right
      ≤ table.countP right + keys.countP right := by
  induction keys generalizing table with
  | nil => exact Nat.le_refl _
  | cons key keys ih =>
    have hkey : (insert key table).countP right ≤ (key :: table).countP right :=
      countP_insert_le h
    rw [List.countP_cons] at hkey
    rw [List.foldl_cons, List.countP_cons]
    exact Nat.le_trans ih (by omega)

theorem grants_ofInstructions (h : Merges right) :
    Grants right (ofInstructions is) a ↔ Grants right (is.flatMap keysOf) a := by
  rw [ofInstructions, grants_foldl_insert h]
  simp [Grants]

theorem countP_ofInstructions_le (h : Merges right) :
    (ofInstructions is).countP right ≤ (is.flatMap keysOf).countP right :=
  Nat.le_trans (countP_foldl_insert_le h) (Nat.le_of_eq (Nat.zero_add _))

theorem grants_keys_iff :
    Grants right (is.flatMap keysOf) a ↔ ∃ i ∈ is, Grants right (keysOf i) a := by
  simp only [Grants, List.mem_flatMap]
  constructor
  · rintro ⟨k, ⟨i, hi, hk⟩, hright⟩
    exact ⟨i, hi, k, hk, hright⟩
  · rintro ⟨i, hi, k, hk, hright⟩
    exact ⟨k, ⟨i, hi, hk⟩, hright⟩

theorem grants_named_iff :
    Grants (fun _ => true) (is.flatMap keysOf) a
      ↔ ∃ i ∈ is, i.programId = a ∨ ∃ k ∈ i.accounts, k.address = a := by
  rw [grants_keys_iff]
  simp only [keysOf, grants_cons]
  simp [AccountMeta.reads, Grants]

/-- A program is named, but does not sign. -/
theorem grants_isSigner_iff :
    Grants AccountMeta.isSigner (is.flatMap keysOf) a ↔ ∃ i ∈ is, a ∈ i.signers := by
  rw [grants_keys_iff]
  simp only [keysOf, grants_cons]
  simp [AccountMeta.reads, Grants, Instruction.mem_signers_iff]

/-- The keys that sign, or those that do not, are the written and the read ones of them. -/
theorem select_perm (isSigner : Bool) (table : List AccountMeta) :
    (select isSigner true table ++ select isSigner false table).Perm
      ((table.filter fun k => k.isSigner == isSigner).map AccountMeta.address) := by
  have hsplit := List.filter_append_perm AccountMeta.isWritable
    (table.filter fun k => k.isSigner == isSigner)
  have hwritten : (fun k : AccountMeta => k.isSigner == isSigner && k.isWritable == true)
      = fun k => k.isWritable && k.isSigner == isSigner := by
    funext k
    rw [Bool.and_comm, beq_true]
  have hread : (fun k : AccountMeta => k.isSigner == isSigner && k.isWritable == false)
      = fun k => !k.isWritable && k.isSigner == isSigner := by
    funext k
    rw [Bool.and_comm, beq_false]
  rw [select, select, hwritten, hread, ← List.filter_filter, ← List.filter_filter,
    ← List.map_append]
  exact hsplit.map AccountMeta.address

/-- Every entry is in one of the four selections. -/
theorem selections_perm (table : List AccountMeta) :
    (select true true table ++ select true false table
      ++ (select false true table ++ select false false table)).Perm
      (table.map AccountMeta.address) := by
  have hsplit := List.filter_append_perm (fun k : AccountMeta => k.isSigner == true) table
  have hother : (fun k : AccountMeta => !(k.isSigner == true)) = fun k => k.isSigner == false := by
    funext k
    cases k.isSigner <;> rfl
  rw [hother] at hsplit
  have hmap := hsplit.map AccountMeta.address
  rw [List.map_append] at hmap
  exact ((select_perm true table).append (select_perm false table)).trans hmap

theorem mem_select_iff {isSigner : Bool} :
    a ∈ select isSigner true table ∨ a ∈ select isSigner false table
      ↔ ∃ k ∈ table, k.isSigner = isSigner ∧ k.address = a := by
  rw [← List.mem_append, (select_perm isSigner table).mem_iff]
  simp [and_assoc]

end KeyTable

/-! ## The keys of a message -/

namespace Message

open KeyTable (Grants)

variable {payer a : Address} {is : List Instruction}

/-- **A message lists its payer, and every other key of the table once.** -/
theorem keys_perm : (keys payer is).Perm (payer :: (otherKeys payer is).map AccountMeta.address) := by
  rw [keys, requiredSigners, List.cons_append, List.cons_append]
  exact (KeyTable.selections_perm _).cons payer

/-- The payer is the first key. -/
theorem head?_keys : (keys payer is).head? = some payer := rfl

theorem grants_otherKeys {right : AccountMeta → Bool} (h : KeyTable.Merges right) :
    Grants right (otherKeys payer is) a
      ↔ a ≠ payer ∧ Grants right (is.flatMap KeyTable.keysOf) a := by
  rw [← KeyTable.grants_ofInstructions h]
  simp only [Grants, otherKeys, List.mem_filter, bne_iff_ne]
  constructor
  · rintro ⟨k, ⟨hk, hne⟩, hright, rfl⟩
    exact ⟨hne, k, hk, hright, rfl⟩
  · rintro ⟨hne, k, hk, hright, rfl⟩
    exact ⟨k, ⟨hk, hne⟩, hright, rfl⟩

/-- **The payer signs, and whoever an instruction wants to sign.** -/
theorem mem_requiredSigners_iff :
    a ∈ requiredSigners payer is ↔ a = payer ∨ ∃ i ∈ is, a ∈ i.signers := by
  have hothers : Grants AccountMeta.isSigner (otherKeys payer is) a
      ↔ a ≠ payer ∧ ∃ i ∈ is, a ∈ i.signers := by
    rw [grants_otherKeys KeyTable.merges_isSigner, KeyTable.grants_isSigner_iff]
  rw [requiredSigners, readSigners, List.cons_append, List.mem_cons, List.mem_append,
    KeyTable.mem_select_iff]
  change a = payer ∨ Grants AccountMeta.isSigner (otherKeys payer is) a ↔ _
  rw [hothers]
  by_cases hpayer : a = payer <;> simp [hpayer]

/-- No more keys are listed than the instructions name, and the payer. -/
theorem length_keys_le :
    (keys payer is).length ≤ (is.flatMap KeyTable.keysOf).length + 1 := by
  have htable : (otherKeys payer is).length ≤ (is.flatMap KeyTable.keysOf).length := by
    have hnamed := @KeyTable.countP_ofInstructions_le _ is KeyTable.merges_named
    rw [List.countP_true] at hnamed
    exact Nat.le_trans (List.length_filter_le _ _) hnamed
  rw [keys_perm.length_eq, List.length_cons, List.length_map]
  exact Nat.succ_le_succ htable

/-- **A message names its payer, and every key that an instruction names.** -/
theorem mem_keys_iff :
    a ∈ keys payer is ↔ a = payer ∨ ∃ i ∈ is, i.programId = a ∨ ∃ k ∈ i.accounts, k.address = a := by
  have hothers : Grants (fun _ => true) (otherKeys payer is) a
      ↔ a ≠ payer ∧ ∃ i ∈ is, i.programId = a ∨ ∃ k ∈ i.accounts, k.address = a := by
    rw [grants_otherKeys KeyTable.merges_named, KeyTable.grants_named_iff]
  have hlisted : a ∈ (otherKeys payer is).map AccountMeta.address
      ↔ Grants (fun _ => true) (otherKeys payer is) a := by
    simp [Grants]
  rw [keys_perm.mem_iff, List.mem_cons, hlisted, hothers]
  by_cases hpayer : a = payer <;> simp [hpayer]

/-- While an index has room for every key, the index of a key leads back to it. -/
theorem getElem?_indexOf {keys : List Address} {key : Address} (hmem : key ∈ keys)
    (hroom : keys.length ≤ 256) : keys[(indexOf keys key).toNat]? = some key := by
  have hlt : keys.findIdx (· == key) < keys.length :=
    List.findIdx_lt_length_of_exists ⟨key, hmem, beq_self_eq_true key⟩
  have hfound : keys.findIdx? (· == key) = some (keys.findIdx (· == key)) :=
    List.findIdx?_eq_some_of_exists ⟨key, hmem, beq_self_eq_true key⟩
  have hkey : keys[keys.findIdx (· == key)] = key := by
    simpa using List.findIdx_getElem (w := hlt)
  rw [indexOf, hfound, Option.getD_some, UInt8.toNat_ofNat', Nat.mod_eq_of_lt (by omega),
    List.getElem?_eq_getElem hlt, hkey]

end Message

end DomainAuction
