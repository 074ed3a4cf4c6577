import DomainAuction.Proofs.Packing.Exact
import DomainAuction.Proofs.Scan.Buckets

/-!
# HeaderWindows — what the windows for ending auctions find

The times of an auction header lie behind three addresses, each with a presence byte, so where a
time lies depends on which times before it are there. The two sets of windows for ending auctions
find a header exactly if it has not ended, has a planned end in the bucket of the span, and has no
bid, or has one. What follows the header does not matter.
-/

namespace DomainAuction

/-! ## Windows behind a known front -/

namespace Window

variable {front back bytes : Bytes}

theorem shows_iff {w : Window} {data : Bytes} :
    w.shows data = true ↔ w.offset ≤ data.length ∧ w.bytes <+: data.drop w.offset := by
  simp [shows, List.isPrefixOf_iff_prefix]

/-- A window behind the front looks at what is behind the front. -/
theorem shows_append_iff {offset k : Nat} (ho : offset = front.length + k) :
    (⟨offset, bytes⟩ : Window).shows (front ++ back) = true
      ↔ (⟨k, bytes⟩ : Window).shows back = true := by
  subst ho
  simp [shows_iff, List.drop_length_add_append]

theorem shows_zero_iff {data : Bytes} :
    (⟨0, bytes⟩ : Window).shows data = true ↔ bytes <+: data := by
  simp [shows_iff]

/-- A byte that is there can be left out of the window. -/
theorem shows_cons_iff {offset : Nat} {b : UInt8} (ho : offset = front.length) :
    (⟨offset, b :: bytes⟩ : Window).shows (front ++ b :: back) = true
      ↔ (⟨offset + 1, bytes⟩ : Window).shows (front ++ b :: back) = true := by
  subst ho
  rw [shows_append_iff (k := 0) (Nat.add_zero _).symm, shows_append_iff (k := 1) rfl,
    shows_zero_iff, shows_iff]
  simp

end Window

/-! ## The bytes of a header -/

namespace Layout

@[simp] theorem write_optionalTime_none : optionalTime.write none = [0] := rfl

@[simp] theorem write_optionalTime_some (t : Int64) :
    optionalTime.write (some t) = 1 :: timeBytes t := rfl

end Layout

namespace AuctionHeader

open Layout (optionalTime)

/-- The three addresses in front of the times. -/
def addressBytes (h : AuctionHeader) : Bytes :=
  h.authority.toList ++ (h.resource.toList ++ h.tokenMint.toList)

@[simp] theorem length_addressBytes (h : AuctionHeader) : h.addressBytes.length = 96 := by
  simp [addressBytes, Octets.length_toList]

theorem write_layout (h : AuctionHeader) :
    layout.write h = h.addressBytes ++ (optionalTime.write h.lastBid ++
      (optionalTime.write h.endedAt ++ (optionalTime.write h.endAuctionAt ++
        optionalTime.write h.endAuctionGap))) := by
  unfold addressBytes
  rw [List.append_assoc, List.append_assoc]
  rfl

theorem exact_layout : layout.Exact fun _ => True := by
  have htimes := Layout.exact_optionalTime.both (Layout.exact_optionalTime.both
    (Layout.exact_optionalTime.both Layout.exact_optionalTime))
  have hfields := (Layout.exact_octets 32).both ((Layout.exact_octets 32).both
    ((Layout.exact_octets 32).both htimes))
  exact (hfields.iso (fun _ => rfl) fun _ => rfl).congr fun _ => by simp

end AuctionHeader

/-! ## The window on the planned end -/

/-- A window on all bytes of a time but the lowest ones, behind a front that reaches to the time,
compares these bytes and looks at nothing behind them. -/
theorem Window.shows_timeBytes_iff {front bytes : Bytes} {offset count : Nat} (t : Int64)
    (back : Bytes) (ho : offset = front.length + count) (hcount : count ≤ 8)
    (hlen : bytes.length = 8 - count) :
    (⟨offset, bytes⟩ : Window).shows (front ++ (timeBytes t ++ back)) = true
      ↔ (timeBytes t).drop count = bytes := by
  have hdrop : (timeBytes t ++ back).drop count = (timeBytes t).drop count ++ back :=
    List.drop_append_of_le_length (by simpa using hcount)
  have hsame : bytes.length = ((timeBytes t).drop count).length := by
    rw [List.length_drop, length_timeBytes, hlen]
  rw [Window.shows_append_iff ho, Window.shows_iff, hdrop]
  constructor
  · rintro ⟨-, hpre⟩
    have hpre' := List.prefix_of_prefix_length_le hpre (List.prefix_append _ back) hsame.le
    exact (hpre'.eq_of_length hsame).symm
  · intro heq
    refine ⟨?_, heq ▸ List.prefix_append _ _⟩
    show count ≤ (timeBytes t ++ back).length
    rw [List.length_append, length_timeBytes]
    omega

/-- The window on the shared bytes of the end, behind a front that reaches to the end, tells whether
the end is in the bucket. -/
theorem endTimeWindow_shows_iff {presence : Nat} {front : Bytes} (now last t : Int64) (back : Bytes)
    (hf : front.length = presence + 1) :
    (endTimeWindow presence now last).toList.all (·.shows (front ++ (timeBytes t ++ back))) = true
      ↔ InBucket now last t := by
  have hle := varyingTimeBytes_le now last
  rw [endTimeWindow_eq]
  unfold InBucket
  by_cases h8 : varyingTimeBytes now last = 8
  · -- no byte is shared, and no window is opened
    simp [h8, List.drop_of_length_le]
  · simp only [if_neg h8, Option.toList_some, List.all_cons, List.all_nil, Bool.and_true]
    exact Window.shows_timeBytes_iff t back (by rw [hf]) hle (by simp)

open Layout (optionalTime)

/-- What the windows behind the bid look at. The presence bytes of the two ends are next to each
other only if there is no actual end. -/
theorem endTimes_show_iff {front : Bytes} {k : Nat} (now last : Int64)
    (endedAt endAuctionAt : Option Int64) (back : Bytes) (hf : front.length = k) :
    Window.allShow (⟨k, [0, 1]⟩ :: (endTimeWindow (k + 1) now last).toList)
        (front ++ (optionalTime.write endedAt ++ (optionalTime.write endAuctionAt ++ back))) = true
      ↔ endedAt = none ∧ ∃ t, endAuctionAt = some t ∧ InBucket now last t := by
  unfold Window.allShow
  rw [List.all_cons, Bool.and_eq_true, Window.shows_append_iff (k := 0) hf.symm,
    Window.shows_zero_iff]
  cases endedAt with
  | some e => simp
  | none =>
    cases endAuctionAt with
    | none => simp
    | some t =>
      have hfront : (front ++ [0, 1]).length = k + 1 + 1 := by simp [hf]
      have hwin := endTimeWindow_shows_iff now last t back hfront
      simpa using hwin

/-! ## The two sets of windows -/

variable {now interval : Int64} {h : AuctionHeader} {rest : Bytes}

/-- **The first set finds the auctions without a bid.** -/
theorem allShow_endingWithoutBid_iff :
    Window.allShow (endingWithoutBid now interval) (AuctionHeader.layout.write h ++ rest) = true
      ↔ h.lastBid = none ∧ h.endedAt = none
        ∧ ∃ t, h.endAuctionAt = some t ∧ InBucket now (spanEnd now interval) t := by
  have haddr := h.length_addressBytes
  rw [AuctionHeader.write_layout, List.append_assoc, endingWithoutBid, Window.allShow,
    List.all_cons, Bool.and_eq_true]
  cases hb : h.lastBid with
  | some b =>
    rw [Window.shows_append_iff (k := 0) haddr.symm, Window.shows_zero_iff]
    simp
  | none =>
    -- without a bid there is one byte in front of the ends
    have hfront : (h.addressBytes ++ [0]).length = 97 := by simp
    have htimes := endTimes_show_iff now (spanEnd now interval) h.endedAt h.endAuctionAt
      (optionalTime.write h.endAuctionGap ++ rest) hfront
    rw [Window.allShow, List.all_cons, Bool.and_eq_true] at htimes
    simp only [Layout.write_optionalTime_none, List.append_assoc, List.cons_append,
      List.nil_append, true_and] at htimes ⊢
    rw [Window.shows_cons_iff haddr.symm]
    exact htimes

/-- **The second set finds the auctions with a bid.** -/
theorem allShow_endingWithBid_iff :
    Window.allShow (endingWithBid now interval) (AuctionHeader.layout.write h ++ rest) = true
      ↔ h.lastBid.isSome = true ∧ h.endedAt = none
        ∧ ∃ t, h.endAuctionAt = some t ∧ InBucket now (spanEnd now interval) t := by
  have haddr := h.length_addressBytes
  rw [AuctionHeader.write_layout, List.append_assoc, endingWithBid, Window.allShow,
    List.all_cons, Bool.and_eq_true, Window.shows_append_iff (k := 0) haddr.symm,
    Window.shows_zero_iff]
  cases hb : h.lastBid with
  | none => simp
  | some b =>
    -- the bid moves the ends by the eight bytes of its time
    have hfront : (h.addressBytes ++ 1 :: timeBytes b).length = 105 := by simp
    have htimes := endTimes_show_iff now (spanEnd now interval) h.endedAt h.endAuctionAt
      (optionalTime.write h.endAuctionGap ++ rest) hfront
    rw [Window.allShow] at htimes
    simp only [Layout.write_optionalTime_some, List.append_assoc, List.cons_append] at htimes ⊢
    rw [htimes]
    simp

/-- An auction that ends in the span has not ended, and its planned end is in the bucket. -/
theorem inBucket_of_endsWithin (hw : h.endsWithin now interval = true) :
    h.endedAt = none ∧ ∃ t, h.endAuctionAt = some t ∧ InBucket now (spanEnd now interval) t := by
  unfold AuctionHeader.endsWithin at hw
  cases he : h.endedAt with
  | some e => simp [he] at hw
  | none =>
    cases ht : h.endAuctionAt with
    | none => simp [he, ht] at hw
    | some t =>
      obtain ⟨hn, hl⟩ : now ≤ t ∧ t ≤ spanEnd now interval := by simpa [he, ht] using hw
      exact ⟨rfl, t, rfl, inBucket_of_between hn hl⟩

end DomainAuction
