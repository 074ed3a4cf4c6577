import DomainAuction.Proofs.Packing.Cuts
import DomainAuction.Proofs.Record.AccountData

/-!
# AddressWindows — what the windows for bids and names find

A window on a whole address compares it with the address that stands there. The window for the pots
of a bidder finds a pot exactly if it is the bidder's. The windows for the names of an owner under a
parent look at the first 64 bytes, and a header has 96: what they find is a header of such a name,
or data that break off behind the two addresses.
-/

namespace DomainAuction

theorem Octets.toList_prefix_append_iff {n : Nat} {a b : Octets n} {rest : Bytes} :
    a.toList <+: b.toList ++ rest ↔ a = b := by
  constructor
  · intro h
    have hsame : a.toList.length = b.toList.length := a.length_toList.trans b.length_toList.symm
    have hfront := List.prefix_of_prefix_length_le h (List.prefix_append _ rest) hsame.le
    exact ext_toList (hfront.eq_of_length hsame)
  · rintro rfl
    exact List.prefix_append _ _

namespace Window

/-- A window on an address, behind a front that reaches to the address. -/
theorem shows_address_iff {offset : Nat} {front back : Bytes} {a b : Address}
    (ho : offset = front.length) :
    (⟨offset, a.toList⟩ : Window).shows (front ++ (b.toList ++ back)) = true ↔ a = b := by
  rw [shows_append_iff (k := 0) ho, shows_zero_iff, Octets.toList_prefix_append_iff]

/-- **A pot is found by the window of its bidder**, whatever stands behind its addresses. -/
theorem allShow_ofBidder_iff {bidder : Address} {p : BidderPot} {back : Bytes} :
    allShow (ofBidder bidder) (p.addressBytes ++ back) = true ↔ p.bidderWallet = bidder := by
  have hwindow : (⟨32, bidder.toList⟩ : Window).shows
      (p.bidderPotToken.toList ++ (p.bidderWallet.toList ++ (p.auction.toList ++ back))) = true
        ↔ bidder = p.bidderWallet :=
    shows_address_iff p.bidderPotToken.length_toList.symm
  unfold allShow ofBidder BidderPot.addressBytes
  rw [List.all_cons, List.all_nil, Bool.and_true, List.append_assoc, List.append_assoc, hwindow,
    eq_comm]

/-- The windows for the names of an owner under a parent look at the two addresses, and at nothing
behind them. -/
theorem allShow_ofOwner_iff {owner parent : Address} {data : Bytes} :
    allShow (ofOwner owner (some parent)) data = true
      ↔ parent.toList ++ owner.toList <+: data := by
  unfold allShow ofOwner
  simp only [Option.toList_some, List.map_cons, List.map_nil, List.all_cons, List.all_nil,
    Bool.and_true, Bool.and_eq_true, shows_zero_iff]
  constructor
  · rintro ⟨howner, back, rfl⟩
    rw [shows_append_iff (k := 0) parent.length_toList.symm, shows_zero_iff] at howner
    exact (List.prefix_append_right_inj _).2 howner
  · rintro ⟨back, rfl⟩
    rw [List.append_assoc]
    exact ⟨(shows_address_iff parent.length_toList.symm).2 rfl, List.prefix_append _ _⟩

end Window

/-! ## Headers of names, whole and cut off -/

namespace NameHeader

variable {parent owner : Address} {data : Bytes} {h : NameHeader}

theorem decode_eq_ok_iff :
    layout.decode data = .ok h
      ↔ ∃ rest, data = h.parentName.toList ++ (h.owner.toList ++ (h.nameClass.toList ++ rest)) := by
  have hwrite : layout.write h
      = h.parentName.toList ++ (h.owner.toList ++ h.nameClass.toList) := rfl
  rw [exact_layout.decode_eq_ok_iff, hwrite]
  simp only [true_and, List.append_assoc]

/-- The data are a name under the parent that belongs to the owner. -/
def Names (parent owner : Address) (data : Bytes) : Prop :=
  ∃ h, layout.decode data = .ok h ∧ h.owner = owner ∧ h.parentName = parent

/-- The data name the parent and the owner, and break off before the header is complete. -/
def CutOff (parent owner : Address) (data : Bytes) : Prop :=
  parent.toList ++ owner.toList <+: data ∧ data.length < size

theorem CutOff.decode (hcut : CutOff parent owner data) :
    layout.decode data = .error .insufficientByteLength := by
  have hfixed : layout.FixedSize size := Layout.fixedSize_sized length_write
  exact hfixed.short data hcut.2

theorem Names.not_cutOff (hnames : Names parent owner data) : ¬ CutOff parent owner data := by
  intro hcut
  obtain ⟨h, hdecode, -, -⟩ := hnames
  rw [hcut.decode] at hdecode
  cases hdecode

/-- **The windows find the names of the owner under the parent, and what is cut off of such a
name.** -/
theorem allShow_ofOwner_cases :
    Window.allShow (Window.ofOwner owner (some parent)) data = true
      ↔ Names parent owner data ∨ CutOff parent owner data := by
  rw [Window.allShow_ofOwner_iff]
  constructor
  · intro hfront
    by_cases hlen : data.length < size
    · exact .inr ⟨hfront, hlen⟩
    · -- behind the two addresses there is room for a third one, which is the class
      obtain ⟨back, rfl⟩ := hfront
      have hroom : 32 ≤ back.length := by
        simp only [List.length_append, Octets.length_toList, size] at hlen
        omega
      refine .inl ⟨⟨parent, owner, ⟨back.take 32, List.length_take_of_le hroom⟩⟩, ?_, rfl, rfl⟩
      refine decode_eq_ok_iff.2 ⟨back.drop 32, ?_⟩
      rw [List.take_append_drop, List.append_assoc]
  · rintro (⟨h, hdecode, rfl, rfl⟩ | hcut)
    · obtain ⟨rest, rfl⟩ := decode_eq_ok_iff.1 hdecode
      rw [← List.append_assoc]
      exact List.prefix_append _ _
    · exact hcut.1

end NameHeader

end DomainAuction
