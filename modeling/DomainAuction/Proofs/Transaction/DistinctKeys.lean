import DomainAuction.Proofs.Transaction.Keys

/-!
# DistinctKeys — a message lists each key once

The table of keys is ordered by address, so that a key which is named again is found and merged with
its entry. No address has two entries, and as every entry besides the payer's goes into exactly one
of the four groups of a message, no key is listed twice.
-/

namespace DomainAuction

namespace KeyTable

variable {key : AccountMeta} {table keys : List AccountMeta} {is : List Instruction}

/-- The addresses of a table grow. -/
def Ordered (table : List AccountMeta) : Prop :=
  table.Pairwise fun a b => a.address.toNat < b.address.toNat

/-- What holds of the addresses of a table and of a new key holds of the table with the key. -/
theorem forall_address_insert (P : Address → Prop) (hkey : P key.address)
    (htable : ∀ k ∈ table, P k.address) : ∀ k ∈ insert key table, P k.address := by
  intro k hk
  have hgrants : Grants (fun _ => true) (insert key table) k.address := ⟨k, hk, rfl, rfl⟩
  rcases grants_cons.1 ((grants_insert merges_named).1 hgrants) with ⟨-, heq⟩ | ⟨j, hj, -, heq⟩
  · exact heq ▸ hkey
  · exact heq ▸ htable j hj

theorem ordered_insert (key : AccountMeta) (h : Ordered table) : Ordered (insert key table) := by
  induction table with
  | nil => exact List.pairwise_singleton _ _
  | cons first rest ih =>
    obtain ⟨hfirst, hrest⟩ := List.pairwise_cons.1 h
    unfold insert
    split
    · exact List.pairwise_cons.2 ⟨hfirst, hrest⟩
    · next hne =>
      split
      · next hlt =>
        have hlt : key.address.toNat < first.address.toNat := of_decide_eq_true hlt
        refine List.pairwise_cons.2 ⟨List.forall_mem_cons.2 ⟨hlt, fun k hk => ?_⟩, h⟩
        exact Nat.lt_trans hlt (hfirst k hk)
      · next hge =>
        have hge : ¬ key.address.toNat < first.address.toNat := fun h => hge (decide_eq_true h)
        have hne : key.address.toNat ≠ first.address.toNat := fun h => hne (Octets.toNat_inj h)
        have hgt : first.address.toNat < key.address.toNat := by omega
        have hbehind : ∀ k ∈ insert key rest, first.address.toNat < k.address.toNat :=
          forall_address_insert (fun a => first.address.toNat < a.toNat) hgt hfirst
        exact List.pairwise_cons.2 ⟨hbehind, ih hrest⟩

theorem ordered_foldl_insert (h : Ordered table) :
    Ordered (keys.foldl (fun table key => insert key table) table) := by
  induction keys generalizing table with
  | nil => exact h
  | cons key keys ih => exact ih (ordered_insert key h)

theorem ordered_ofInstructions (is : List Instruction) : Ordered (ofInstructions is) :=
  ordered_foldl_insert .nil

/-- No address has two entries. -/
theorem Ordered.nodup (h : Ordered table) : (table.map AccountMeta.address).Nodup := by
  refine List.pairwise_map.2 (h.imp fun hlt heq => ?_)
  rw [heq] at hlt
  exact Nat.lt_irrefl _ hlt

end KeyTable

namespace Message

variable {payer : Address} {is : List Instruction}

/-- **A message lists each key once.** -/
theorem nodup_keys : (keys payer is).Nodup := by
  have hothers : ((otherKeys payer is).map AccountMeta.address).Nodup :=
    (KeyTable.ordered_ofInstructions is).nodup.sublist (List.filter_sublist.map _)
  have hpayer : payer ∉ (otherKeys payer is).map AccountMeta.address := by
    simp [otherKeys]
  exact keys_perm.nodup_iff.2 (List.nodup_cons.2 ⟨hpayer, hothers⟩)

theorem nodup_requiredSigners : (requiredSigners payer is).Nodup :=
  nodup_keys.sublist (List.sublist_append_left _ _)

end Message

end DomainAuction
