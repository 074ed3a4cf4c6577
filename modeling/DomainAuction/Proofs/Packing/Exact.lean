import DomainAuction.Packing.Layout
import DomainAuction.Proofs.Packing.Taking

/-!
# Exact — layouts that read what they write, and nothing else

A layout is exact for the values that fit it if a read succeeds on the bytes that are written for
such a value, whatever stands behind them, and on no other bytes. One law holds both halves: what
was written is read back, and what is read has only one spelling. Layouts put together from exact
ones are exact, so a record needs no argument of its own.

The only values that do not fit are texts of 2 ^ 32 bytes and more, whose length prefix records a
remainder.
-/

namespace DomainAuction

/-- The 32 bits of a length prefix can tell the length of a text. -/
def FitsPrefix (s : String) : Prop := (utf8 s).length < 2 ^ 32

namespace Reader

open Running

variable {input rest : Bytes}

theorem text_eq_ok_iff {s : String} :
    text input = .ok s rest
      ↔ FitsPrefix s ∧ input = littleEndian 4 (utf8 s).length ++ utf8 s ++ rest := by
  unfold text
  constructor
  · intro h
    obtain ⟨n, mid, hn, h⟩ := bind_eq_ok_iff.1 h
    rw [u32_eq_ok_iff] at hn
    rw [get_bind_apply] at h
    -- the length is compared with what is left before any byte of the text is taken
    split at h
    · obtain ⟨taken, tail, ht, h'⟩ := bind_eq_ok_iff.1 h
      obtain ⟨hlen, hmid⟩ := bytes_eq_ok_iff.1 ht
      cases hs : ofUtf8? taken with
      | none =>
        rw [hs] at h'
        exact absurd h' throw_ne_ok
      | some t =>
        rw [hs] at h'
        obtain ⟨rfl, rfl⟩ := pure_eq_ok_iff.1 h'
        obtain rfl := ofUtf8?_eq_some_iff.1 hs
        -- a length that was read from 32 bits is below 2 ^ 32
        have hfits : FitsPrefix t := by
          rw [FitsPrefix, hlen]
          exact n.toNat_lt
        exact ⟨hfits, by rw [hn, hmid, hlen, List.append_assoc]⟩
    · exact absurd h throw_ne_ok
  · rintro ⟨hs, rfl⟩
    have hn : (UInt32.ofNat (utf8 s).length).toNat = (utf8 s).length :=
      UInt32.toNat_ofNat_of_lt' hs
    refine bind_eq_ok_iff.2 ⟨UInt32.ofNat (utf8 s).length, utf8 s ++ rest,
      u32_eq_ok_iff.2 (by rw [hn, List.append_assoc]), ?_⟩
    rw [get_bind_apply, hn, if_pos (by simp)]
    refine bind_eq_ok_iff.2 ⟨utf8 s, rest, bytes_eq_ok_iff.2 ⟨rfl, rfl⟩, ?_⟩
    rw [ofUtf8?_eq_some_iff.2 rfl]
    exact pure_eq_ok_iff.2 ⟨rfl, rfl⟩

end Reader

namespace Layout

open Running (bind_eq_ok_iff pure_eq_ok_iff throw_ne_ok)

variable {α β : Type} {l : Layout α} {m : Layout β} {P : α → Prop} {Q : β → Prop}

/-- Reading succeeds on what is written for a value that fits, with anything behind it, and on
nothing else. -/
def Exact (l : Layout α) (Fits : α → Prop) : Prop :=
  ∀ input a rest, l.read input = .ok a rest ↔ Fits a ∧ input = l.write a ++ rest

/-! ## Reading -/

theorem decode_eq_ok_iff_read {input : Bytes} {a : α} :
    l.decode input = .ok a ↔ ∃ rest, l.read input = .ok a rest :=
  Reader.value_eq_ok_iff

theorem decodeExact_eq_ok_iff_read {input : Bytes} {a : α} :
    l.decodeExact input = .ok a ↔ l.read input = .ok a [] :=
  Reader.value_finish_eq_ok_iff

theorem decodeExact_of_rest {input rest : Bytes} {a : α} (h : l.read input = .ok a rest)
    (hrest : rest ≠ []) : l.decodeExact input = .error .trailingBytes :=
  Reader.value_finish_of_rest h hrest

theorem read_both_eq_ok_iff {input rest : Bytes} {p : α × β} :
    (l.both m).read input = .ok p rest
      ↔ ∃ mid, l.read input = .ok p.1 mid ∧ m.read mid = .ok p.2 rest := by
  show (do return (← l.read, ← m.read) : Reader (α × β)) input = .ok p rest ↔ _
  simp only [bind_eq_ok_iff, pure_eq_ok_iff]
  constructor
  · rintro ⟨a, mid, ha, b, tail, hb, rfl, rfl⟩
    exact ⟨mid, ha, hb⟩
  · rintro ⟨mid, ha, hb⟩
    exact ⟨p.1, mid, ha, p.2, rest, hb, rfl, rfl⟩

theorem read_iso_eq_ok_iff {forth : α → β} {back : β → α} {input rest : Bytes} {b : β} :
    (l.iso forth back).read input = .ok b rest ↔ ∃ a, l.read input = .ok a rest ∧ forth a = b :=
  Running.map_eq_ok_iff

/-- A flag says yes with every byte but zero. -/
theorem read_flag_eq_ok_iff {input rest : Bytes} {b : Bool} :
    flag.read input = .ok b rest ↔ ∃ code : UInt8, b = (code != 0) ∧ input = code :: rest := by
  show (do return (← Reader.u8) != 0 : Reader Bool) input = .ok b rest ↔ _
  simp only [bind_eq_ok_iff, pure_eq_ok_iff, Reader.u8_eq_ok_iff_cons]
  constructor
  · rintro ⟨code, mid, rfl, rfl, rfl⟩
    exact ⟨code, rfl, rfl⟩
  · rintro ⟨code, rfl, rfl⟩
    exact ⟨code, rest, rfl, rfl, rfl⟩

theorem read_sized_eq_ok_iff {size : Nat} {input rest : Bytes} {a : α} :
    (l.sized size).read input = .ok a rest
      ↔ size ≤ input.length ∧ l.read input = .ok a rest := by
  show (do if (← get).length < size then throw .insufficientByteLength
           l.read : Reader α) input = .ok a rest ↔ _
  rw [Running.get_bind_apply]
  by_cases hlt : input.length < size
  · simp only [if_pos hlt, Nat.not_le.2 hlt, false_and, iff_false]
    exact throw_ne_ok
  · simp only [if_neg hlt, Nat.not_lt.1 hlt, true_and]

namespace Exact

/-- Decoding finds a value exactly where its bytes stand in front. -/
theorem decode_eq_ok_iff (h : l.Exact P) {input : Bytes} {a : α} :
    l.decode input = .ok a ↔ P a ∧ ∃ rest, input = l.write a ++ rest := by
  simp only [decode, Reader.value_eq_ok_iff, h input a, exists_and_left]

/-- **Self-delimiting**: where a value ends does not depend on what follows. -/
theorem append_inj (h : l.Exact P) {a b : α} {s t : Bytes} (ha : P a) (hb : P b)
    (he : l.write a ++ s = l.write b ++ t) : a = b ∧ s = t := by
  have hs := (h (l.write a ++ s) a s).2 ⟨ha, rfl⟩
  have ht := (h (l.write a ++ s) b t).2 ⟨hb, he⟩
  rw [hs] at ht
  cases ht
  exact ⟨rfl, rfl⟩

theorem congr (h : l.Exact P) {P' : α → Prop} (hP : ∀ a, P a ↔ P' a) : l.Exact P' := by
  intro input a rest
  rw [h, hP]

theorem map_eq_ok_iff (h : l.Exact P) {f : α → β} {b : β} {input rest : Bytes} :
    (f <$> l.read) input = .ok b rest ↔ ∃ a, P a ∧ input = l.write a ++ rest ∧ f a = b := by
  simp only [Running.map_eq_ok_iff, h input, and_assoc]

/-! ## Putting layouts together -/

theorem both (hl : l.Exact P) (hm : m.Exact Q) :
    (l.both m).Exact fun p => P p.1 ∧ Q p.2 := by
  intro input p rest
  show (l.both m).read input = .ok p rest
    ↔ (P p.1 ∧ Q p.2) ∧ input = l.write p.1 ++ m.write p.2 ++ rest
  rw [read_both_eq_ok_iff]
  constructor
  · rintro ⟨mid, ha, hb⟩
    obtain ⟨hP, rfl⟩ := (hl _ _ _).1 ha
    obtain ⟨hQ, rfl⟩ := (hm _ _ _).1 hb
    exact ⟨⟨hP, hQ⟩, (List.append_assoc ..).symm⟩
  · rintro ⟨⟨hP, hQ⟩, rfl⟩
    exact ⟨m.write p.2 ++ rest, (hl _ _ _).2 ⟨hP, List.append_assoc ..⟩,
      (hm _ _ _).2 ⟨hQ, rfl⟩⟩

theorem iso (h : l.Exact P) {forth : α → β} {back : β → α}
    (forth_back : ∀ b, forth (back b) = b) (back_forth : ∀ a, back (forth a) = a) :
    (l.iso forth back).Exact fun b => P (back b) := by
  intro input b rest
  show (forth <$> l.read) input = .ok b rest ↔ P (back b) ∧ input = l.write (back b) ++ rest
  rw [Running.map_eq_ok_iff]
  constructor
  · rintro ⟨a, ha, rfl⟩
    rw [back_forth]
    exact (h _ _ _).1 ha
  · intro hb
    exact ⟨back b, (h _ _ _).2 hb, forth_back b⟩

/-- A check of the length refuses nothing that is long enough for every value. -/
theorem sized (h : l.Exact P) {size : Nat} (hsize : ∀ a, size ≤ (l.write a).length) :
    (l.sized size).Exact P := by
  intro input a rest
  rw [read_sized_eq_ok_iff, h]
  constructor
  · rintro ⟨-, hread⟩
    exact hread
  · rintro ⟨hP, rfl⟩
    refine ⟨?_, hP, rfl⟩
    rw [List.length_append]
    exact Nat.le_add_right_of_le (hsize a)

end Exact

/-! ## Fields -/

/-- A layout for which every value fits. -/
theorem exact_of_all
    (h : ∀ input a rest, l.read input = .ok a rest ↔ input = l.write a ++ rest) :
    l.Exact fun _ => True := by
  intro input a rest
  rw [h, true_and]

theorem exact_u8 : u8.Exact fun _ => True :=
  exact_of_all fun _ _ _ => Reader.u8_eq_ok_iff

theorem exact_u32 : u32.Exact fun _ => True :=
  exact_of_all fun _ _ _ => Reader.u32_eq_ok_iff

theorem exact_u64 : u64.Exact fun _ => True :=
  exact_of_all fun _ _ _ => Reader.u64_eq_ok_iff

theorem exact_octets (n : Nat) : (octets n).Exact fun _ => True :=
  exact_of_all fun _ _ _ => Reader.octets_eq_ok_iff

/-- The prefix of a text that fits is its length. -/
theorem write_text {s : String} (h : FitsPrefix s) :
    text.write s = littleEndian 4 (utf8 s).length ++ utf8 s := by
  show littleEndian 4 (UInt32.ofNat (utf8 s).length).toNat ++ utf8 s = _
  rw [UInt32.toNat_ofNat_of_lt' h]

theorem exact_text : text.Exact FitsPrefix := by
  intro input s rest
  show Reader.text input = .ok s rest ↔ _
  rw [Reader.text_eq_ok_iff]
  exact and_congr_right fun h => by rw [write_text h]

theorem exact_optionalU64 : optionalU64.Exact fun _ => True := by
  refine exact_of_all fun input a rest => ?_
  show Reader.optionalU64 input = .ok a rest ↔ _
  unfold Reader.optionalU64
  constructor
  · intro h
    obtain ⟨tag, mid, htag, h⟩ := bind_eq_ok_iff.1 h
    rw [Reader.u8_eq_ok_iff] at htag
    -- the presence byte decides: nothing behind a zero, a number behind a one
    split at h
    · obtain ⟨rfl, rfl⟩ := pure_eq_ok_iff.1 h
      exact htag
    · obtain ⟨n, tail, hn, h⟩ := bind_eq_ok_iff.1 h
      obtain ⟨rfl, rfl⟩ := pure_eq_ok_iff.1 h
      rw [htag, Reader.u64_eq_ok_iff.1 hn]
      rfl
    · exact absurd h throw_ne_ok
  · rintro rfl
    cases a with
    | none => exact bind_eq_ok_iff.2 ⟨0, rest, Reader.u8_eq_ok_iff.2 rfl, rfl⟩
    | some n =>
      exact bind_eq_ok_iff.2 ⟨1, u64.write n ++ rest, Reader.u8_eq_ok_iff.2 rfl,
        bind_eq_ok_iff.2 ⟨n, rest, Reader.u64_eq_ok_iff.2 rfl, rfl⟩⟩

theorem exact_measured {n : Nat} (hn : n < 2 ^ 32) : (measured n).Exact fun _ => True := by
  refine exact_of_all fun input a rest => ?_
  have hto : (UInt32.ofNat n).toNat = n := UInt32.toNat_ofNat_of_lt' hn
  show (do if (← Reader.u32).toNat = n then Reader.octets n else throw .invalidStringLength :
    Reader (Octets n)) input = .ok a rest ↔ input = u32.write (UInt32.ofNat n) ++ a.toList ++ rest
  rw [bind_eq_ok_iff]
  constructor
  · rintro ⟨k, mid, hk, h⟩
    split at h
    · next hkn =>
      have hkn : k = UInt32.ofNat n := UInt32.toNat.inj (hkn.trans hto.symm)
      rw [Reader.u32_eq_ok_iff.1 hk, Reader.octets_eq_ok_iff.1 h, hkn, List.append_assoc]
      rfl
    · exact absurd h throw_ne_ok
  · rintro rfl
    refine ⟨UInt32.ofNat n, a.toList ++ rest, Reader.u32_eq_ok_iff.2 (List.append_assoc ..), ?_⟩
    rw [if_pos hto]
    exact Reader.octets_eq_ok_iff.2 rfl

theorem exact_optionalTime : optionalTime.Exact fun _ => True :=
  exact_optionalU64.iso (fun a => by cases a <;> simp) (fun a => by cases a <;> simp)

/-! ## How long fields are -/

@[simp] theorem length_write_u32 (n : UInt32) : (u32.write n).length = 4 :=
  length_littleEndian 4 _

@[simp] theorem length_write_u64 (n : UInt64) : (u64.write n).length = 8 :=
  length_littleEndian 8 _

@[simp] theorem length_write_octets {n : Nat} (a : Octets n) : ((octets n).write a).length = n :=
  a.length_toList

@[simp] theorem length_write_measured {n : Nat} (a : Octets n) :
    ((measured n).write a).length = 4 + n := by
  show (u32.write (UInt32.ofNat n) ++ a.toList).length = 4 + n
  rw [List.length_append, length_write_u32, a.length_toList]

@[simp] theorem length_write_text (s : String) :
    (text.write s).length = 4 + (utf8 s).length := by
  show (u32.write _ ++ utf8 s).length = _
  rw [List.length_append, length_write_u32]

@[simp] theorem length_write_both (p : α × β) :
    ((l.both m).write p).length = (l.write p.1).length + (m.write p.2).length :=
  List.length_append

end Layout

end DomainAuction
