import DomainAuction.Price.Oracle
import DomainAuction.Proofs.Packing.Fields
import DomainAuction.Record.Auction
import DomainAuction.Record.Name
import DomainAuction.Record.Sale

/-!
# Refusals — whose fault it is when a record does not decode

The kind of an error tells a caller what to do about it. Whatever an account holds, a decoder that
refuses it blames the data: it never says that an account is missing, so a caller who waits for
accounts to appear does not wait for one that is there.
-/

namespace DomainAuction

theorem Field.kind_of_read {f : Field} {input rest : Bytes} {e : AuctionError}
    (h : f.read input = .error e rest) : e.kind = .deserialization := by
  cases read_eq_error_iff.1 h <;> rfl

namespace Layout

variable {α β : Type} {l : Layout α} {m : Layout β}

/-- Reading fails for nothing but what stands in the bytes. -/
def BlamesData (l : Layout α) : Prop :=
  ∀ input e rest, l.read input = .error e rest → e.kind = .deserialization

theorem BlamesData.kind_of_decode (h : l.BlamesData) {data : Bytes} {e : AuctionError}
    (he : l.decode data = .error e) : e.kind = .deserialization := by
  obtain ⟨rest, hread⟩ := Reader.value_eq_error_iff.1 he
  exact h _ _ _ hread

/-! ## Fields and what is put together of them -/

theorem u8_blamesData : u8.BlamesData := fun _ _ _ => Field.kind_of_read (f := .u8)

theorem address_blamesData : address.BlamesData :=
  fun _ _ _ => Field.kind_of_read (f := .address)

theorem text_blamesData : text.BlamesData := fun _ _ _ => Field.kind_of_read (f := .text)

theorem optionalU64_blamesData : optionalU64.BlamesData :=
  fun _ _ _ => Field.kind_of_read (f := .optionalU64)

theorem BlamesData.both (hl : l.BlamesData) (hm : m.BlamesData) : (l.both m).BlamesData := by
  intro input e rest h
  rcases Running.bind_eq_error_iff.1 h with h | ⟨a, t, -, h⟩
  · exact hl _ _ _ h
  · rcases Running.bind_eq_error_iff.1 h with h | ⟨b, t', -, h⟩
    · exact hm _ _ _ h
    · exact absurd h Running.pure_ne_error

theorem BlamesData.iso (hl : l.BlamesData) (forth : α → β) (back : β → α) :
    (l.iso forth back).BlamesData :=
  fun _ _ _ h => hl _ _ _ (Running.map_eq_error_iff.1 h)

theorem BlamesData.sized (hl : l.BlamesData) (size : Nat) : (l.sized size).BlamesData := by
  intro input e rest h
  change (do if (← get).length < size then throw .insufficientByteLength
             l.read : Reader α) input = .error e rest at h
  rw [Running.get_bind_apply] at h
  by_cases hshort : input.length < size
  · rw [if_pos hshort] at h
    obtain ⟨rfl, -⟩ := Running.throw_eq_error_iff.1 h
    rfl
  · rw [if_neg hshort] at h
    exact hl _ _ _ h

theorem optionalTime_blamesData : optionalTime.BlamesData :=
  optionalU64_blamesData.iso _ _

end Layout

/-! ## Records -/

open Layout

theorem CentralState.layout_blamesData : layout.BlamesData :=
  u8_blamesData.iso _ _

theorem ResellingState.layout_blamesData : layout.BlamesData :=
  address_blamesData.iso _ _

theorem AuctionStatus.layout_blamesData : layout.BlamesData := by
  intro input e rest h
  rcases Running.bind_eq_error_iff.1 h with h | ⟨code, t, -, h⟩
  · exact u8_blamesData _ _ _ h
  · split at h
    · exact absurd h Running.pure_ne_error
    · exact absurd h Running.pure_ne_error
    · exact absurd h Running.pure_ne_error
    · obtain ⟨rfl, -⟩ := Running.throw_eq_error_iff.1 h
      rfl

theorem NameAuction.layout_blamesData : layout.BlamesData :=
  ((AuctionStatus.layout_blamesData.both
    (address_blamesData.both (u8_blamesData.both address_blamesData))).iso _ _).sized _

theorem NameHeader.layout_blamesData : layout.BlamesData :=
  ((address_blamesData.both (address_blamesData.both address_blamesData)).iso _ _).sized _

theorem ReverseLookup.layout_blamesData : layout.BlamesData :=
  (NameHeader.layout_blamesData.both text_blamesData).iso _ _

theorem AuctionHeader.layout_blamesData : layout.BlamesData :=
  (address_blamesData.both (address_blamesData.both (address_blamesData.both
    (optionalTime_blamesData.both (optionalTime_blamesData.both
      (optionalTime_blamesData.both optionalTime_blamesData)))))).iso _ _

theorem OracleError.kind_toAuctionError (e : OracleError) :
    e.toAuctionError.kind = .deserialization := by
  cases e <;> rfl

end DomainAuction
