import DomainAuction.Packing.Reader
import DomainAuction.Proofs.Positional
import DomainAuction.Proofs.Running

/-!
# Taking — what a successful read says about its input

A reader that succeeds has split its input: in front what it understood, behind it what is left.
For every field the split is given exactly, as the bytes that spell the value, so each lemma here
is an equivalence and says both which inputs are accepted and what is made of them.
-/

namespace DomainAuction

namespace Reader

open Running

variable {α : Type} {input rest : Bytes}

/-! ## Whole inputs -/

theorem value_eq_ok_iff {r : Reader α} {a : α} :
    r.value input = .ok a ↔ ∃ rest, r input = .ok a rest := by
  unfold value
  cases r input <;> simp

theorem value_eq_error_iff {r : Reader α} {e : AuctionError} :
    r.value input = .error e ↔ ∃ rest, r input = .error e rest := by
  unfold value
  cases r input <;> simp

theorem finish_eq_ok_iff {u : Unit} :
    finish input = .ok u rest ↔ input = [] ∧ rest = [] := by
  cases input with
  | nil => exact (pure_eq_ok_iff (a := ())).trans (by simp [eq_comm])
  | cons b bs => exact ⟨fun h => absurd h throw_ne_ok, fun h => by simp at h⟩

/-- A value that takes up the whole input is one that a reader finds with nothing left. -/
theorem value_finish_eq_ok_iff {r : Reader α} {a : α} :
    value (do let a ← r; finish; return a) input = .ok a ↔ r input = .ok a [] := by
  simp only [value_eq_ok_iff, bind_eq_ok_iff, finish_eq_ok_iff, pure_eq_ok_iff]
  constructor
  · rintro ⟨_, b, mid, hb, _, tail, ⟨rfl, rfl⟩, rfl, rfl⟩
    exact hb
  · intro h
    exact ⟨[], a, [], h, (), [], ⟨rfl, rfl⟩, rfl, rfl⟩

/-- What a reader leaves over is an error where nothing may be left. -/
theorem value_finish_of_rest {r : Reader α} {a : α} (h : r input = .ok a rest)
    (hrest : rest ≠ []) :
    value (do let a ← r; finish; return a) input = .error .trailingBytes := by
  obtain ⟨b, bs, rfl⟩ := List.exists_cons_of_ne_nil hrest
  rw [value, bind_of_ok h]
  rfl

/-! ## Fields -/

theorem bytes_eq_ok_iff {count : Nat} {taken : Bytes} :
    bytes count input = .ok taken rest ↔ taken.length = count ∧ input = taken ++ rest := by
  unfold bytes
  constructor
  · intro h
    split at h
    · next hc =>
      cases h
      exact ⟨List.length_take_of_le hc, (List.take_append_drop count input).symm⟩
    · cases h
  · rintro ⟨rfl, rfl⟩
    simp

theorem octets_eq_ok_iff {n : Nat} {a : Octets n} :
    octets n input = .ok a rest ↔ input = a.toList ++ rest := by
  unfold octets
  constructor
  · intro h
    split at h
    · cases h
      exact (List.take_append_drop n input).symm
    · cases h
  · rintro rfl
    have hn : n ≤ (a.toList ++ rest).length := by simp [a.length_toList]
    have ht : (a.toList ++ rest).take n = a.toList := List.take_left' a.length_toList
    have hd : (a.toList ++ rest).drop n = rest := List.drop_left' a.length_toList
    simp only [dif_pos hn, hd]
    exact congrArg (EStateM.Result.ok · rest) (Octets.ext_toList ht)

/-- A number of some width is read from the bytes that spell it. -/
theorem number_eq_ok_iff {width n : Nat} :
    number width input = .ok n rest
      ↔ n < 256 ^ width ∧ input = littleEndian width n ++ rest := by
  unfold number
  simp only [bind_eq_ok_iff, pure_eq_ok_iff, bytes_eq_ok_iff]
  constructor
  · rintro ⟨taken, mid, ⟨rfl, rfl⟩, rfl, rfl⟩
    exact ⟨ofLittleEndian_lt taken, by rw [littleEndian_ofLittleEndian]⟩
  · rintro ⟨hn, rfl⟩
    refine ⟨littleEndian width n, rest, ⟨length_littleEndian width n, rfl⟩, ?_, rfl⟩
    rw [ofLittleEndian_littleEndian, Nat.mod_eq_of_lt hn]

/-- The machine words of all widths at once: `α` has exactly the numbers below `256 ^ width` for its
values. -/
theorem word_eq_ok_iff {width : Nat} {ofNat : Nat → α} {toNat : α → Nat}
    (lt : ∀ a, toNat a < 256 ^ width) (ofNat_toNat : ∀ a, ofNat (toNat a) = a)
    (toNat_ofNat : ∀ n, n < 256 ^ width → toNat (ofNat n) = n) {a : α} :
    (do return ofNat (← number width) : Reader α) input = .ok a rest
      ↔ input = littleEndian width (toNat a) ++ rest := by
  simp only [bind_eq_ok_iff, pure_eq_ok_iff, number_eq_ok_iff]
  constructor
  · rintro ⟨n, mid, ⟨hn, rfl⟩, rfl, rfl⟩
    rw [toNat_ofNat n hn]
  · rintro rfl
    exact ⟨toNat a, rest, ⟨lt a, rfl⟩, ofNat_toNat a, rfl⟩

theorem u8_eq_ok_iff {n : UInt8} :
    u8 input = .ok n rest ↔ input = littleEndian 1 n.toNat ++ rest :=
  word_eq_ok_iff UInt8.toNat_lt (fun _ => UInt8.ofNat_toNat) fun _ => UInt8.toNat_ofNat_of_lt'

/-- A byte is spelled by itself. -/
theorem u8_eq_ok_iff_cons {n : UInt8} : u8 input = .ok n rest ↔ input = n :: rest := by
  rw [u8_eq_ok_iff, littleEndian, littleEndian, UInt8.ofNat_toNat, List.singleton_append]

theorem u32_eq_ok_iff {n : UInt32} :
    u32 input = .ok n rest ↔ input = littleEndian 4 n.toNat ++ rest :=
  word_eq_ok_iff UInt32.toNat_lt (fun _ => UInt32.ofNat_toNat) fun _ => UInt32.toNat_ofNat_of_lt'

theorem u64_eq_ok_iff {n : UInt64} :
    u64 input = .ok n rest ↔ input = littleEndian 8 n.toNat ++ rest :=
  word_eq_ok_iff UInt64.toNat_lt (fun _ => UInt64.ofNat_toNat) fun _ => UInt64.toNat_ofNat_of_lt'

end Reader

end DomainAuction
