import DomainAuction.Proofs.Packing.Fields

/-!
# Cuts — bytes that stop before the value does

The bytes of a value can be cut off anywhere before their end. What is left is never read as another
value, and the error tells where the cut is: among the bytes of a text, whose length prefix then
says more bytes than there are, or anywhere else, where a field of fixed width is not whole. Of two
values one behind the other the cut is in the first one, or the first one is read whole and the cut
is in the second, so the errors of a record follow from those of its fields.
-/

namespace DomainAuction

namespace Layout

variable {α β γ : Type} {l : Layout α} {m : Layout β} {P : α → Prop} {Q : β → Prop}
variable {e : α → Nat → AuctionError} {f : β → Nat → AuctionError}
variable {input mid rest : Bytes} {cause : AuctionError}

/-- Reading fails on the bytes of a value that fits, cut off anywhere before their end, with an
error that the value and the cut decide. -/
def RefusesCuts (l : Layout α) (Fits : α → Prop) (error : α → Nat → AuctionError) : Prop :=
  ∀ a cut, Fits a → cut < (l.write a).length →
    ∃ rest, l.read ((l.write a).take cut) = .error (error a cut) rest

/-- Wherever the bytes of a value are cut off, a field of fixed width is not whole. -/
def RefusesShort (l : Layout α) (Fits : α → Prop) : Prop :=
  l.RefusesCuts Fits fun _ _ => .insufficientByteLength

theorem RefusesCuts.decode_take (h : l.RefusesCuts P e) {a : α} (ha : P a) {cut : Nat}
    (hcut : cut < (l.write a).length) : l.decode ((l.write a).take cut) = .error (e a cut) :=
  Reader.value_eq_error_iff.2 (h a cut ha hcut)

theorem RefusesCuts.congr (h : l.RefusesCuts P e) {P' : α → Prop} {e' : α → Nat → AuctionError}
    (hP : ∀ a, P' a → P a) (he : ∀ a cut, e a cut = e' a cut) : l.RefusesCuts P' e' := by
  intro a cut ha hcut
  rw [← he]
  exact h a cut (hP a ha) hcut

/-! ## Putting layouts together -/

theorem read_both_of_error (h : l.read input = .error cause rest) :
    (l.both m).read input = .error cause rest :=
  Running.bind_of_error h

theorem read_both_of_ok {a : α} (ha : l.read input = .ok a mid)
    (h : m.read mid = .error cause rest) : (l.both m).read input = .error cause rest :=
  (Running.bind_of_ok ha).trans (Running.bind_of_error h)

/-- **A cut of two values** is one of the first, or one of the second behind the whole first. -/
theorem RefusesCuts.both (hcl : l.RefusesCuts P e) (hl : l.Exact P) (hcm : m.RefusesCuts Q f) :
    (l.both m).RefusesCuts (fun p => P p.1 ∧ Q p.2) fun p cut =>
      if cut < (l.write p.1).length then e p.1 cut else f p.2 (cut - (l.write p.1).length) := by
  rintro ⟨a, b⟩ cut ⟨ha, hb⟩ hcut
  have hlen : cut < (l.write a).length + (m.write b).length := by rwa [length_write_both] at hcut
  show ∃ rest, (l.both m).read ((l.write a ++ m.write b).take cut) = .error
    (if cut < (l.write a).length then e a cut else f b (cut - (l.write a).length)) rest
  by_cases hfirst : cut < (l.write a).length
  · obtain ⟨rest, h⟩ := hcl a cut ha hfirst
    rw [if_pos hfirst, List.take_append_of_le_length hfirst.le]
    exact ⟨rest, read_both_of_error h⟩
  · have hread := (hl _ a ((m.write b).take (cut - (l.write a).length))).2 ⟨ha, rfl⟩
    obtain ⟨rest, h⟩ := hcm b (cut - (l.write a).length) hb (by omega)
    rw [if_neg hfirst, List.take_append, List.take_of_length_le (not_lt.1 hfirst)]
    exact ⟨rest, read_both_of_ok hread h⟩

theorem RefusesShort.both (hcl : l.RefusesShort P) (hl : l.Exact P) (hcm : m.RefusesShort Q) :
    (l.both m).RefusesShort fun p => P p.1 ∧ Q p.2 :=
  (RefusesCuts.both hcl hl hcm).congr (fun _ hp => hp) fun _ _ => ite_self _

/-- What is made of a value does not change where its bytes stop. -/
theorem RefusesCuts.map (h : l.RefusesCuts P e) (g : α → γ) {a : α} (ha : P a) {cut : Nat}
    (hcut : cut < (l.write a).length) :
    ∃ rest, (g <$> l.read) ((l.write a).take cut) = .error (e a cut) rest := by
  obtain ⟨rest, hread⟩ := h a cut ha hcut
  exact ⟨rest, Running.map_eq_error_iff.2 hread⟩

theorem RefusesCuts.iso (h : l.RefusesCuts P e) (forth : α → γ) (back : γ → α) :
    (l.iso forth back).RefusesCuts (fun c => P (back c)) fun c => e (back c) :=
  fun _ _ hc hcut => h.map forth hc hcut

/-! ## Values of one size -/

/-- All values take up the same number of bytes, and fewer bytes are refused whatever they are. -/
structure FixedSize (l : Layout α) (size : Nat) : Prop where
  length : ∀ a, (l.write a).length = size
  short : ∀ data, data.length < size → l.decode data = .error .insufficientByteLength

theorem FixedSize.refusesShort {size : Nat} (h : l.FixedSize size) :
    l.RefusesShort fun _ => True := by
  intro a cut _ hcut
  have hshort : ((l.write a).take cut).length < size := by
    rw [List.length_take_of_le hcut.le, ← h.length a]
    exact hcut
  exact Reader.value_eq_error_iff.1 (h.short _ hshort)

theorem FixedSize.iso {size : Nat} (h : l.FixedSize size) (forth : α → γ) (back : γ → α) :
    (l.iso forth back).FixedSize size where
  length c := h.length (back c)
  short data hdata := by
    obtain ⟨rest, hread⟩ := Reader.value_eq_error_iff.1 (h.short data hdata)
    exact Reader.value_eq_error_iff.2 ⟨rest, Running.map_eq_error_iff.2 hread⟩

/-- A check of the length comes before every field. -/
theorem fixedSize_sized {size : Nat} (hlen : ∀ a, (l.write a).length = size) :
    (l.sized size).FixedSize size where
  length := hlen
  short data hdata := by
    refine Reader.value_eq_error_iff.2 ⟨data, ?_⟩
    show (do if (← get).length < size then throw .insufficientByteLength
             l.read : Reader α) data = _
    rw [Running.get_bind_apply, if_pos hdata]
    rfl

/-! ## Fields -/

/-- A field of fixed width is read whole or not at all. -/
theorem fixedSize_of_field (field : Field) {l : Layout field.Value} (hread : l.read = field.read)
    (hlen : ∀ a, (l.write a).length = field.least) : l.FixedSize field.least where
  length := hlen
  short data hdata := by
    refine Reader.value_eq_error_iff.2 ⟨data, ?_⟩
    rw [hread]
    exact Field.read_eq_error_iff.2 (.short hdata)

theorem u8_fixedSize : u8.FixedSize 1 :=
  fixedSize_of_field .u8 rfl fun _ => length_littleEndian 1 _

theorem u32_fixedSize : u32.FixedSize 4 :=
  fixedSize_of_field .u32 rfl length_write_u32

theorem u64_fixedSize : u64.FixedSize 8 :=
  fixedSize_of_field .u64 rfl length_write_u64

theorem octets_fixedSize (n : Nat) : (octets n).FixedSize n :=
  fixedSize_of_field (.octets n) rfl length_write_octets

/-- An optional number is cut off before its presence byte, or inside the number behind it. -/
theorem optionalU64_refusesShort : optionalU64.RefusesShort fun _ => True := by
  intro a cut _ hcut
  cases cut with
  | zero => exact ⟨[], Reader.optionalU64_eq_error_iff.2 (.short Nat.one_pos)⟩
  | succ cut =>
    cases a with
    | none => exact absurd hcut (Nat.not_lt.2 (Nat.le_add_left 1 cut))
    | some n =>
      have hcut' : cut < 8 := by
        have hlen : cut + 1 < (u64.write n).length + 1 := hcut
        rw [length_write_u64] at hlen
        omega
      refine ⟨(u64.write n).take cut, Reader.optionalU64_eq_error_iff.2 (.number ?_)⟩
      rw [List.length_take_of_le (by rw [length_write_u64]; exact hcut'.le)]
      exact hcut'

theorem optionalTime_refusesShort : optionalTime.RefusesShort fun _ => True :=
  optionalU64_refusesShort.iso _ _

/-- The length of a measured byte string is right wherever the bytes stop behind it. -/
theorem measured_refusesShort {n : Nat} (hn : n < 2 ^ 32) :
    (measured n).RefusesShort fun _ => True := by
  have hto : (UInt32.ofNat n).toNat = n := UInt32.toNat_ofNat_of_lt' hn
  intro a cut _ hcut
  rw [length_write_measured] at hcut
  show ∃ rest, (measured n).read ((u32.write (UInt32.ofNat n) ++ a.toList).take cut) = .error _ rest
  by_cases hprefix : cut < 4
  · obtain ⟨rest, h⟩ := u32_fixedSize.refusesShort (UInt32.ofNat n) cut trivial
      (by rw [length_write_u32]; exact hprefix)
    rw [List.take_append_of_le_length (by rw [length_write_u32]; exact hprefix.le)]
    exact ⟨rest, Running.bind_of_error h⟩
  · have hread := (exact_u32 _ (UInt32.ofNat n) (a.toList.take (cut - 4))).2 ⟨trivial, rfl⟩
    obtain ⟨rest, h⟩ := (octets_fixedSize n).refusesShort a (cut - 4) trivial
      (by rw [length_write_octets]; omega)
    -- the length that was read is the right one, so the bytes behind it are read
    have hbody : (measured n).read (u32.write (UInt32.ofNat n) ++ a.toList.take (cut - 4))
        = (if (UInt32.ofNat n).toNat = n then Reader.octets n else throw .invalidStringLength)
            (a.toList.take (cut - 4)) := Running.bind_of_ok hread
    rw [List.take_append, List.take_of_length_le (by rw [length_write_u32]; omega),
      length_write_u32, hbody, if_pos hto]
    exact ⟨rest, h⟩

/-! ## Texts -/

/-- The error of a text that is cut off. Once the length prefix is there, it says more bytes than
there are. -/
def textCutError (s : String) (cut : Nat) : AuctionError :=
  if 4 ≤ cut ∧ cut < 4 + (utf8 s).length then .invalidStringLength else .insufficientByteLength

theorem text_refusesCuts : text.RefusesCuts FitsPrefix textCutError := by
  intro s cut hs hcut
  rw [length_write_text] at hcut
  have hto : (UInt32.ofNat (utf8 s).length).toNat = (utf8 s).length := UInt32.toNat_ofNat_of_lt' hs
  unfold textCutError
  show ∃ rest, Reader.text ((u32.write (UInt32.ofNat (utf8 s).length) ++ utf8 s).take cut)
    = .error _ rest
  by_cases hprefix : cut < 4
  · rw [if_neg (by omega)]
    refine ⟨_, Reader.text_eq_error_iff.2 (.short ?_)⟩
    exact (List.length_take_le _ _).trans_lt hprefix
  · rw [if_pos ⟨not_lt.1 hprefix, hcut⟩, List.take_append,
      List.take_of_length_le (by rw [length_write_u32]; omega), length_write_u32]
    refine ⟨(utf8 s).take (cut - 4), Reader.text_eq_error_iff.2 (.length ?_)⟩
    rw [hto, List.length_take_of_le (by omega)]
    omega

/-- Behind a text all is of fixed width. -/
theorem text_both_refusesCuts (hm : m.RefusesShort Q) :
    (text.both m).RefusesCuts (fun p => FitsPrefix p.1 ∧ Q p.2) fun p => textCutError p.1 := by
  refine (text_refusesCuts.both exact_text hm).congr (fun _ hp => hp) fun p cut => ?_
  rw [length_write_text]
  by_cases hcut : cut < 4 + (utf8 p.1).length
  · rw [if_pos hcut]
  · rw [if_neg hcut, textCutError, if_neg fun h => hcut h.2]

end Layout

end DomainAuction
