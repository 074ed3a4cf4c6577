import DomainAuction.Proofs.Scan.HeaderWindows

/-!
# HeaderPlaces — where the planned end lies in a header

The planned end lies behind two times that can be absent, and each of them takes eight bytes more
when it is there. The offset that a header gives for its planned end counts the first of them, the
last bid, and takes the second, the actual end, to be absent. So the offset leads to the planned
end of every auction that has not ended, whatever its other times are; of an auction that has
ended it leads eight bytes too far to the front, to the actual end.
-/

namespace DomainAuction

/-- A time as a header spells it: a presence byte, and the eight bytes of a time that is there. -/
def spelledTime : Option Int64 → Bytes
  | none => [0]
  | some t => 1 :: timeBytes t

theorem Layout.write_optionalTime (t : Option Int64) : optionalTime.write t = spelledTime t := by
  cases t <;> rfl

theorem length_spelledTime (t : Option Int64) :
    (spelledTime t).length = if t.isSome then 9 else 1 := by
  cases t <;> simp [spelledTime]

namespace AuctionHeader

/-- What a header ends in: the planned end, and the gap behind it. -/
def plannedTimes (h : AuctionHeader) : Bytes :=
  spelledTime h.endAuctionAt ++ spelledTime h.endAuctionGap

theorem write_layout_plannedTimes (h : AuctionHeader) :
    layout.write h = h.addressBytes ++ spelledTime h.lastBid
      ++ (spelledTime h.endedAt ++ h.plannedTimes) := by
  unfold plannedTimes
  rw [write_layout]
  simp only [Layout.write_optionalTime, List.append_assoc]

/-- The offset of the planned end is one byte behind the addresses and the last bid. -/
theorem endAuctionAtOffset_eq (h : AuctionHeader) :
    h.endAuctionAtOffset = (h.addressBytes ++ spelledTime h.lastBid).length + 1 := by
  rw [List.length_append, length_addressBytes, length_spelledTime]
  rfl

/-- **What the offset leads to.** It steps over one byte of the actual end, so the rest of the
actual end comes before the planned times. -/
theorem drop_endAuctionAtOffset (h : AuctionHeader) :
    (layout.write h).drop h.endAuctionAtOffset = (spelledTime h.endedAt).tail ++ h.plannedTimes := by
  rw [write_layout_plannedTimes, endAuctionAtOffset_eq, List.drop_length_add_append]
  cases h.endedAt <;> rfl

/-- **The offset is the place of the planned end exactly if the auction has not ended**: then the
planned end and the gap follow, and nothing else. If it has ended, the eight bytes of the actual
end come first. -/
theorem endAuctionAtOffset_is_place (h : AuctionHeader) :
    ((layout.write h).drop h.endAuctionAtOffset
        = spelledTime h.endAuctionAt ++ spelledTime h.endAuctionGap ↔ h.endedAt = none) ∧
      ∀ e, h.endedAt = some e →
        (layout.write h).drop h.endAuctionAtOffset
          = timeBytes e ++ (spelledTime h.endAuctionAt ++ spelledTime h.endAuctionGap) := by
  rw [drop_endAuctionAtOffset]
  constructor
  · show (spelledTime h.endedAt).tail ++ h.plannedTimes = h.plannedTimes ↔ _
    rw [List.append_left_eq_self]
    cases h.endedAt with
    | none => simp [spelledTime]
    | some e => simp [spelledTime, ← List.length_eq_zero_iff]
  · intro e he
    rw [he]
    rfl

/-- An auction without a bid that was planned to end at 2 and ended at 1. -/
def endedEarly : AuctionHeader :=
  ⟨.zero 32, .zero 32, .zero 32, none, some 1, some 2, none⟩

/-- **Not every header gives the place of its planned end**: this one says 98, where its actual end
is, and its planned end lies at 106. -/
theorem endedEarly_misplaced :
    endedEarly.endAuctionAtOffset = 98 ∧
    (layout.write endedEarly).drop 98 = [1, 0, 0, 0, 0, 0, 0, 0, 1, 2, 0, 0, 0, 0, 0, 0, 0, 0] ∧
    (layout.write endedEarly).drop 106
      = spelledTime endedEarly.endAuctionAt ++ spelledTime endedEarly.endAuctionGap ∧
    ¬ ∀ h : AuctionHeader, (layout.write h).drop h.endAuctionAtOffset
      = spelledTime h.endAuctionAt ++ spelledTime h.endAuctionGap := by
  refine ⟨rfl, by decide +kernel, by decide +kernel, fun hplace => ?_⟩
  have hended := congrArg List.length (hplace endedEarly)
  exact absurd hended (by decide +kernel)

end AuctionHeader

end DomainAuction
