import DomainAuction.Proofs.Record.HeaderPlaces

/-!
# NarrowestWindows — exactly what the windows for ending auctions let through

The windows for a span let through one bucket of planned ends: the times that share with `now` all
bytes but the `k` lowest, where `k` is the least number of bytes that has to be left out for `now`
and the end of the span to agree. That is as narrow as a window on high-order bytes can be, because
`now` and the end of the span differ in the highest byte that is left out. The two sets look for
different presence bytes of the bid, so nothing passes both.
-/

namespace DomainAuction

/-- The least number of low-order bytes above which two times agree. -/
theorem isLeast_varyingTimeBytes (now last : Int64) :
    IsLeast {count | (timeBytes now).drop count = (timeBytes last).drop count}
      (varyingTimeBytes now last) := by
  have hlen : (timeBytes now).length = (timeBytes last).length := by simp
  refine ⟨drop_varyingLowBytes hlen, ?_⟩
  intro count hcount
  exact (varyingLowBytes_le_iff hlen count).2 hcount

/-- **Nothing passes both sets**: one asks for a bid, and one for none. -/
theorem not_allShow_both (now interval : Int64) (data : Bytes) :
    ¬ (Window.allShow (endingWithoutBid now interval) data = true
      ∧ Window.allShow (endingWithBid now interval) data = true) := by
  rintro ⟨hwithout, hwith⟩
  simp only [Window.allShow, endingWithoutBid, endingWithBid, List.all_cons,
    Bool.and_eq_true] at hwithout hwith
  obtain ⟨-, zeros, hzeros⟩ := Window.shows_iff.1 hwithout.1
  obtain ⟨-, ones, hones⟩ := Window.shows_iff.1 hwith.1
  -- the byte at 96 would have to be zero and one
  have hbyte := hzeros.trans hones.symm
  simp at hbyte

namespace AuctionHeader

/-- Of an auction that has not ended, the bytes around its planned end do not depend on it. -/
theorem exists_around_endAuctionAt {h : AuctionHeader} (hrunning : h.endedAt = none) :
    ∃ front back, front.length = h.endAuctionAtOffset + 1 ∧
      ∀ t, layout.write { h with endAuctionAt := some t } = front ++ (timeBytes t ++ back) := by
  -- in front are the presence bytes of both ends, one absent and one there
  refine ⟨h.addressBytes ++ spelledTime h.lastBid ++ [0, 1], spelledTime h.endAuctionGap, ?_, ?_⟩
  · rw [endAuctionAtOffset_eq, List.length_append]
    rfl
  · intro t
    rw [write_layout_plannedTimes]
    simp [hrunning, plannedTimes, spelledTime, addressBytes]

/-- **No window on more bytes is wide enough**: whatever bytes it asks for, it misses an auction that
ends at `now` or one that ends with the span. -/
theorem not_shows_now_and_end {now last : Int64} {h : AuctionHeader} (hrunning : h.endedAt = none)
    {count : Nat} (hcount : count < varyingTimeBytes now last) {bytes : Bytes}
    (hlen : bytes.length = 8 - count) (rest rest' : Bytes) :
    ¬ ((⟨h.endAuctionAtOffset + 1 + count, bytes⟩ : Window).shows
          (layout.write { h with endAuctionAt := some now } ++ rest) = true
        ∧ (⟨h.endAuctionAtOffset + 1 + count, bytes⟩ : Window).shows
          (layout.write { h with endAuctionAt := some last } ++ rest') = true) := by
  have hle := varyingTimeBytes_le now last
  obtain ⟨front, back, hfront, hwrite⟩ := exists_around_endAuctionAt hrunning
  rw [hwrite, hwrite]
  simp only [List.append_assoc]
  rw [Window.shows_timeBytes_iff now (back ++ rest) (by rw [hfront]) (by omega) hlen,
    Window.shows_timeBytes_iff last (back ++ rest') (by rw [hfront]) (by omega) hlen]
  rintro ⟨hnow, hlast⟩
  -- both ends of the span would agree above fewer bytes
  have hagree := (isLeast_varyingTimeBytes now last).2 (hnow.trans hlast.symm)
  omega

end AuctionHeader

/-- What the windows for the auctions that end in a span find, where `k` low-order bytes of the
planned end are left out. -/
structure FindsBucket (now interval : Int64) (k : Nat) : Prop where
  /-- The first set finds the auctions without a bid whose planned end is in the bucket. -/
  withoutBid : ∀ (h : AuctionHeader) (rest : Bytes),
    Window.allShow (endingWithoutBid now interval) (AuctionHeader.layout.write h ++ rest) = true
      ↔ h.lastBid = none ∧ h.endedAt = none
        ∧ ∃ t, h.endAuctionAt = some t ∧ (timeBytes t).drop k = (timeBytes now).drop k
  /-- The second set finds those with a bid. -/
  withBid : ∀ (h : AuctionHeader) (rest : Bytes),
    Window.allShow (endingWithBid now interval) (AuctionHeader.layout.write h ++ rest) = true
      ↔ h.lastBid.isSome = true ∧ h.endedAt = none
        ∧ ∃ t, h.endAuctionAt = some t ∧ (timeBytes t).drop k = (timeBytes now).drop k
  disjoint : ∀ data, ¬ (Window.allShow (endingWithoutBid now interval) data = true
    ∧ Window.allShow (endingWithBid now interval) data = true)
  /-- The whole span is in the bucket. -/
  span : ∀ t, now ≤ t → t ≤ spanEnd now interval →
    (timeBytes t).drop k = (timeBytes now).drop k
  /-- A window on more high-order bytes of the planned end loses one end of the span. -/
  narrowest : ∀ (h : AuctionHeader), h.endedAt = none → ∀ count < k, ∀ bytes : Bytes,
    bytes.length = 8 - count → ∀ rest rest' : Bytes,
      ¬ ((⟨h.endAuctionAtOffset + 1 + count, bytes⟩ : Window).shows
            (AuctionHeader.layout.write { h with endAuctionAt := some now } ++ rest) = true
          ∧ (⟨h.endAuctionAtOffset + 1 + count, bytes⟩ : Window).shows
            (AuctionHeader.layout.write
              { h with endAuctionAt := some (spanEnd now interval) } ++ rest') = true)

/-- **The windows let through one bucket, and the narrowest one there is**, for every span. -/
theorem endingWindows_findBucket (now interval : Int64) :
    ∃ k, IsLeast {count | (timeBytes now).drop count
        = (timeBytes (spanEnd now interval)).drop count} k ∧ FindsBucket now interval k := by
  refine ⟨varyingTimeBytes now (spanEnd now interval), isLeast_varyingTimeBytes _ _, ?_⟩
  exact {
    withoutBid := fun _ _ => allShow_endingWithoutBid_iff
    withBid := fun _ _ => allShow_endingWithBid_iff
    disjoint := not_allShow_both now interval
    span := fun _ hn hl => inBucket_of_between hn hl
    narrowest := fun _ hrunning _ hcount _ hlen rest rest' =>
      AuctionHeader.not_shows_now_and_end hrunning hcount hlen rest rest' }

end DomainAuction
