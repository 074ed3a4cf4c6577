import DomainAuction.Proofs.Packing.Exact
import DomainAuction.Proofs.Scan.HeaderWindows
import DomainAuction.Record.Auction
import DomainAuction.Record.Name
import DomainAuction.Record.Sale

/-!
# AccountData — records at the front of accounts

Accounts are often larger than the record they hold, so a record is read off the front of the data
and what follows it does not matter. Six kinds of record have exactly one spelling: the data decode
to a record exactly if its bytes stand in front. The seventh, the pot of a bidder, ends in a
yes-or-no byte of which every value but zero says yes, and this byte is all that writing the record
again can change.
-/

namespace DomainAuction

namespace Layout

variable {α : Type} {l : Layout α} {Fits : α → Prop} {Spells : α → Bytes → Prop}

/-- How the records of a layout are decoded from account data, given the byte strings that spell
each record. -/
structure FrontDecoded (l : Layout α) (Spells : α → Bytes → Prop) : Prop where
  /-- A record is found exactly where it is spelled in front. -/
  front : ∀ data a, l.decode data = .ok a ↔ ∃ bytes, Spells a bytes ∧ bytes <+: data
  /-- Decoding the whole data leaves no room for more. -/
  whole : ∀ data a, l.decodeExact data = .ok a ↔ Spells a data
  trailing : ∀ bytes a rest, Spells a bytes → rest ≠ [] →
    l.decodeExact (bytes ++ rest) = .error .trailingBytes

/-- It is enough to know where a read starts and stops. -/
theorem frontDecoded_of_read
    (h : ∀ input a rest,
      l.read input = .ok a rest ↔ ∃ bytes, Spells a bytes ∧ input = bytes ++ rest) :
    l.FrontDecoded Spells where
  front data a := by
    simp only [decode_eq_ok_iff_read, h]
    constructor
    · rintro ⟨rest, bytes, hspells, rfl⟩
      exact ⟨bytes, hspells, List.prefix_append _ _⟩
    · rintro ⟨bytes, hspells, rest, rfl⟩
      exact ⟨rest, bytes, hspells, rfl⟩
  whole data a := by
    rw [decodeExact_eq_ok_iff_read, h]
    constructor
    · rintro ⟨bytes, hspells, rfl⟩
      rwa [List.append_nil]
    · intro hspells
      exact ⟨data, hspells, (List.append_nil data).symm⟩
  trailing bytes a rest hspells hrest :=
    decodeExact_of_rest ((h _ _ _).2 ⟨bytes, hspells, rfl⟩) hrest

/-- In an exact layout a record that fits is spelled as it is written, and no other way. -/
theorem Exact.frontDecoded (h : l.Exact Fits) :
    l.FrontDecoded fun a bytes => Fits a ∧ bytes = l.write a := by
  refine frontDecoded_of_read fun input a rest => ?_
  rw [h]
  constructor
  · rintro ⟨hfits, rfl⟩
    exact ⟨l.write a, ⟨hfits, rfl⟩, rfl⟩
  · rintro ⟨bytes, ⟨hfits, rfl⟩, rfl⟩
    exact ⟨hfits, rfl⟩

theorem Exact.frontDecoded_of_all (h : l.Exact fun _ => True) :
    l.FrontDecoded fun a bytes => bytes = l.write a := by
  simpa only [true_and] using h.frontDecoded

end Layout

/-! ## The records with one spelling -/

open Layout (exact_u8 exact_octets exact_text)

theorem CentralState.exact_layout : layout.Exact fun _ => True :=
  exact_u8.iso (fun _ => rfl) fun _ => rfl

theorem ResellingState.exact_layout : layout.Exact fun _ => True :=
  (exact_octets 32).iso (fun _ => rfl) fun _ => rfl

theorem AuctionStatus.exact_layout : layout.Exact fun _ => True := by
  refine Layout.exact_of_all fun input status rest => ?_
  constructor
  · intro h
    obtain ⟨code, mid, hcode, h⟩ := Running.bind_eq_ok_iff.1 h
    rw [Reader.u8_eq_ok_iff] at hcode
    -- one status for each of three codes, and none for the others
    split at h
    · obtain ⟨rfl, rfl⟩ := Running.pure_eq_ok_iff.1 h
      exact hcode
    · obtain ⟨rfl, rfl⟩ := Running.pure_eq_ok_iff.1 h
      exact hcode
    · obtain ⟨rfl, rfl⟩ := Running.pure_eq_ok_iff.1 h
      exact hcode
    · exact absurd h Running.throw_ne_ok
  · rintro rfl
    refine Running.bind_eq_ok_iff.2 ⟨status.code, rest, Reader.u8_eq_ok_iff.2 ?_, ?_⟩
    · cases status <;> rfl
    · cases status <;> rfl

theorem NameAuction.length_write (a : NameAuction) : (layout.write a).length = 66 := by
  show ([a.status.code] ++ (a.quoteMint.toList ++
    (Layout.u8.write a.signerNonce ++ a.auctionAccount.toList))).length = 66
  simp [Octets.length_toList, Layout.u8]

theorem NameAuction.exact_layout : layout.Exact fun _ => True := by
  have hfields := AuctionStatus.exact_layout.both ((exact_octets 32).both
    (exact_u8.both (exact_octets 32)))
  refine Layout.Exact.sized (Layout.Exact.congr (P := fun _ => True ∧ True ∧ True ∧ True) ?_ ?_)
    fun a => a.length_write.ge
  · exact hfields.iso (fun _ => rfl) fun _ => rfl
  · simp

theorem NameHeader.length_write (h : NameHeader) : (layout.write h).length = size := by
  show (h.parentName.toList ++ (h.owner.toList ++ h.nameClass.toList)).length = 96
  simp [Octets.length_toList]

theorem NameHeader.exact_layout : layout.Exact fun _ => True := by
  have hfields := (exact_octets 32).both ((exact_octets 32).both (exact_octets 32))
  refine Layout.Exact.sized (Layout.Exact.congr (P := fun _ => True ∧ True ∧ True) ?_ ?_)
    fun h => h.length_write.ge
  · exact hfields.iso (fun _ => rfl) fun _ => rfl
  · simp

theorem ReverseLookup.exact_layout : layout.Exact fun r => FitsPrefix r.name :=
  ((NameHeader.exact_layout.both exact_text).iso (fun _ => rfl) fun _ => rfl).congr
    fun _ => by simp

/-! ## The pot of a bidder -/

namespace BidderPot

/-- The three addresses in front of the flag. -/
def addressBytes (p : BidderPot) : Bytes :=
  p.bidderPotToken.toList ++ (p.bidderWallet.toList ++ p.auction.toList)

@[simp] theorem length_addressBytes (p : BidderPot) : p.addressBytes.length = 96 := by
  simp [addressBytes, Octets.length_toList]

theorem write_layout (p : BidderPot) :
    layout.write p = p.addressBytes ++ [if p.emptied then 1 else 0] := by
  unfold addressBytes
  rw [List.append_assoc, List.append_assoc]
  rfl

/-- **A pot is read from its addresses and any flag that says what the pot says.** -/
theorem read_layout_eq_ok_iff {input rest : Bytes} {p : BidderPot} :
    layout.read input = .ok p rest
      ↔ ∃ flag : UInt8, p.emptied = (flag != 0) ∧ input = p.addressBytes ++ flag :: rest := by
  have haddress : ∀ {input rest : Bytes} {a : Address},
      Layout.address.read input = .ok a rest ↔ input = a.toList ++ rest :=
    Reader.octets_eq_ok_iff
  unfold layout addressBytes
  simp only [Layout.read_sized_eq_ok_iff, Layout.read_iso_eq_ok_iff, Layout.read_both_eq_ok_iff,
    Layout.read_flag_eq_ok_iff, haddress]
  constructor
  · rintro ⟨-, ⟨token, wallet, auction, emptied⟩, ⟨mid₁, h₁, mid₂, h₂, mid₃, h₃, flag, h₄, h₅⟩, rfl⟩
    refine ⟨flag, h₄, ?_⟩
    simp only [h₁, h₂, h₃, h₅, List.append_assoc]
  · rintro ⟨flag, hflag, rfl⟩
    refine ⟨?_, (p.bidderPotToken, p.bidderWallet, p.auction, p.emptied), ?_, rfl⟩
    · simp only [List.length_append, Octets.length_toList, List.length_cons]
      omega
    · exact ⟨_, List.append_assoc .., _, List.append_assoc .., _, rfl, flag, hflag, rfl⟩

/-- A pot is spelled by its addresses and any byte that says whether it is emptied. -/
def Spells (p : BidderPot) (bytes : Bytes) : Prop :=
  ∃ flag : UInt8, p.emptied = (flag != 0) ∧ bytes = p.addressBytes ++ [flag]

theorem frontDecoded : layout.FrontDecoded Spells := by
  refine Layout.frontDecoded_of_read fun input p rest => ?_
  rw [read_layout_eq_ok_iff]
  constructor
  · rintro ⟨flag, hflag, rfl⟩
    exact ⟨p.addressBytes ++ [flag], ⟨flag, hflag, rfl⟩, by simp⟩
  · rintro ⟨bytes, ⟨flag, hflag, rfl⟩, rfl⟩
    exact ⟨flag, hflag, by simp⟩

/-- Writing a pot that was decoded changes nothing but its flag. -/
theorem write_of_decode {data : Bytes} {p : BidderPot} (h : layout.decode data = .ok p) :
    ∃ flag : UInt8, data.take 97 = data.take 96 ++ [flag]
      ∧ layout.write p = data.take 96 ++ [if flag = 0 then 0 else 1] := by
  obtain ⟨bytes, ⟨flag, hflag, rfl⟩, rest, rfl⟩ := (frontDecoded.front data p).1 h
  have h96 : (p.addressBytes ++ [flag] ++ rest).take 96 = p.addressBytes := by
    rw [List.append_assoc]
    exact List.take_left' p.length_addressBytes
  have h97 : (p.addressBytes ++ [flag] ++ rest).take 97 = p.addressBytes ++ [flag] :=
    List.take_left' (by simp)
  refine ⟨flag, by rw [h96, h97], ?_⟩
  rw [h96, write_layout, hflag]
  by_cases hzero : flag = 0 <;> simp [hzero]

end BidderPot

/-- **Records are decoded from the front of their accounts.** Six kinds have one spelling, the bytes
that are written; of a pot, writing normalises the flag. -/
theorem frontDecoded_records :
    AuctionHeader.layout.FrontDecoded (fun h bytes => bytes = AuctionHeader.layout.write h) ∧
    CentralState.layout.FrontDecoded (fun c bytes => bytes = CentralState.layout.write c) ∧
    NameAuction.layout.FrontDecoded (fun a bytes => bytes = NameAuction.layout.write a) ∧
    NameHeader.layout.FrontDecoded (fun h bytes => bytes = NameHeader.layout.write h) ∧
    ResellingState.layout.FrontDecoded (fun s bytes => bytes = ResellingState.layout.write s) ∧
    ReverseLookup.layout.FrontDecoded (fun r bytes =>
      (utf8 r.name).length < 2 ^ 32 ∧ bytes = ReverseLookup.layout.write r) ∧
    BidderPot.layout.FrontDecoded (fun p bytes => ∃ flag : UInt8,
      p.emptied = (flag != 0) ∧ bytes = p.addressBytes ++ [flag]) ∧
    ∀ data p, BidderPot.layout.decode data = .ok p →
      ∃ flag : UInt8, data.take 97 = data.take 96 ++ [flag]
        ∧ BidderPot.layout.write p = data.take 96 ++ [if flag = 0 then 0 else 1] := by
  refine ⟨AuctionHeader.exact_layout.frontDecoded_of_all,
    CentralState.exact_layout.frontDecoded_of_all, NameAuction.exact_layout.frontDecoded_of_all,
    NameHeader.exact_layout.frontDecoded_of_all, ResellingState.exact_layout.frontDecoded_of_all,
    ReverseLookup.exact_layout.frontDecoded, BidderPot.frontDecoded, ?_⟩
  intro data p h
  exact BidderPot.write_of_decode h

end DomainAuction
