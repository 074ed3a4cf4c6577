import DomainAuction.Proofs.Packing.Exact

/-!
# Fields — what one read takes, and what it takes when it fails

A read that succeeds has taken the bytes of one value. A read that fails has mostly taken nothing,
as a field of fixed width is taken whole or not at all. A text and an optional number are taken in
two steps, and what stands between the steps is lost when the second one fails: the length prefix
of a text, with the bytes that are no text behind it, or the presence byte of a number. The bytes
that are left are all that later reads see, so nothing here depends on earlier reads.
-/

namespace DomainAuction

/-- The fields that a reader takes off the front of a byte string. -/
inductive Field where
  | u8
  | u32
  | u64
  | address
  | octets (count : Nat)
  | bytes (count : Nat)
  | text
  | optionalU64

namespace Field

def Value : Field → Type
  | u8 => UInt8
  | u32 => UInt32
  | u64 => UInt64
  | address => Address
  | octets count => Octets count
  | bytes _ => Bytes
  | text => String
  | optionalU64 => Option UInt64

def read : (f : Field) → Reader f.Value
  | u8 => Reader.u8
  | u32 => Reader.u32
  | u64 => Reader.u64
  | address => Reader.address
  | octets count => Reader.octets count
  | bytes count => Reader.bytes count
  | text => Reader.text
  | optionalU64 => Reader.optionalU64

/-- The bytes that spell a value. -/
def write : (f : Field) → f.Value → Bytes
  | u8 => Layout.u8.write
  | u32 => Layout.u32.write
  | u64 => Layout.u64.write
  | address => Layout.address.write
  | octets count => (Layout.octets count).write
  | bytes _ => fun b => b
  | text => Layout.text.write
  | optionalU64 => Layout.optionalU64.write

/-- The values that a field has room for. -/
def Fits : (f : Field) → f.Value → Prop
  | bytes count => fun b : Bytes => b.length = count
  | text => FitsPrefix
  | _ => fun _ => True

/-- How many bytes every value of a field has at least. -/
def least : Field → Nat
  | u8 => 1
  | u32 => 4
  | u64 => 8
  | address => 32
  | octets count => count
  | bytes count => count
  | text => 4
  | optionalU64 => 1

/-- How reading a field off an input fails: with which error, and with which bytes left. -/
inductive Refuses : Field → Bytes → AuctionError → Bytes → Prop
  /-- Not even the shortest value is there. -/
  | short {f : Field} {input : Bytes} : input.length < f.least →
    Refuses f input .insufficientByteLength input
  /-- The prefix of a text says more bytes than there are. -/
  | length {n : UInt32} {rest : Bytes} : rest.length < n.toNat →
    Refuses text (Layout.u32.write n ++ rest) .invalidStringLength rest
  /-- The bytes of a text are not valid. -/
  | encoding {n : UInt32} {taken rest : Bytes} : taken.length = n.toNat → ofUtf8? taken = none →
    Refuses text (Layout.u32.write n ++ (taken ++ rest)) .invalidUtf8 rest
  /-- The presence byte of a number says that it is there, and it is cut off. -/
  | number {rest : Bytes} : rest.length < 8 →
    Refuses optionalU64 (1 :: rest) .insufficientByteLength rest
  /-- The presence byte of a number says neither yes nor no. -/
  | presence {code : UInt8} {rest : Bytes} : code ≠ 0 → code ≠ 1 →
    Refuses optionalU64 (code :: rest) .invalidOptionTag rest

end Field

/-! ## Reads that fail -/

namespace Reader

open Running

variable {α : Type} {input rest : Bytes} {e : AuctionError}

theorem bytes_eq_error_iff {count : Nat} :
    bytes count input = .error e rest
      ↔ input.length < count ∧ e = .insufficientByteLength ∧ rest = input := by
  unfold bytes
  by_cases hc : count ≤ input.length
  · simp [hc, Nat.not_lt.2 hc]
  · simp [hc, Nat.not_le.1 hc, eq_comm]

theorem octets_eq_error_iff {n : Nat} :
    octets n input = .error e rest
      ↔ input.length < n ∧ e = .insufficientByteLength ∧ rest = input := by
  unfold octets
  by_cases hn : n ≤ input.length
  · simp [hn, Nat.not_lt.2 hn]
  · simp [hn, Nat.not_le.1 hn, eq_comm]

/-- A number is only made of bytes that are all there. -/
theorem word_eq_error_iff {width : Nat} {ofNat : Nat → α} :
    (do return ofNat (← number width) : Reader α) input = .error e rest
      ↔ input.length < width ∧ e = .insufficientByteLength ∧ rest = input := by
  simp only [number, bind_eq_error_iff, pure_ne_error, and_false, exists_false, or_false,
    bytes_eq_error_iff]

theorem u8_eq_error_iff :
    u8 input = .error e rest ↔ input.length < 1 ∧ e = .insufficientByteLength ∧ rest = input :=
  word_eq_error_iff

theorem u32_eq_error_iff :
    u32 input = .error e rest ↔ input.length < 4 ∧ e = .insufficientByteLength ∧ rest = input :=
  word_eq_error_iff

theorem u64_eq_error_iff :
    u64 input = .error e rest ↔ input.length < 8 ∧ e = .insufficientByteLength ∧ rest = input :=
  word_eq_error_iff

/-- What comes behind the prefix of a text, and fails. -/
theorem text_body_eq_error_iff {n : UInt32} :
    (do
      if n.toNat ≤ (← get).length then
        match ofUtf8? (← bytes n.toNat) with
        | some s => return s
        | none => throw .invalidUtf8
      else throw .invalidStringLength : Reader String) input = .error e rest
      ↔ (input.length < n.toNat ∧ e = .invalidStringLength ∧ rest = input) ∨
        ∃ taken, taken.length = n.toNat ∧ ofUtf8? taken = none ∧ e = .invalidUtf8
          ∧ input = taken ++ rest := by
  rw [get_bind_apply]
  by_cases hn : n.toNat ≤ input.length
  · rw [if_pos hn, bind_eq_error_iff]
    simp only [bytes_eq_error_iff, bytes_eq_ok_iff, Nat.not_lt.2 hn, false_and, false_or]
    constructor
    · rintro ⟨taken, mid, ⟨hlen, hinput⟩, h⟩
      cases hs : ofUtf8? taken with
      | some s =>
        rw [hs] at h
        exact absurd h pure_ne_error
      | none =>
        rw [hs] at h
        obtain ⟨rfl, rfl⟩ := throw_eq_error_iff.1 h
        exact ⟨taken, hlen, hs, rfl, hinput⟩
    · rintro ⟨taken, hlen, hs, rfl, hinput⟩
      refine ⟨taken, rest, ⟨hlen, hinput⟩, ?_⟩
      rw [hs]
      exact throw_eq_error_iff.2 ⟨rfl, rfl⟩
  · rw [if_neg hn, throw_eq_error_iff]
    constructor
    · rintro ⟨rfl, rfl⟩
      exact .inl ⟨Nat.not_le.1 hn, rfl, rfl⟩
    · rintro (⟨-, rfl, rfl⟩ | ⟨taken, hlen, -, -, rfl⟩)
      · exact ⟨rfl, rfl⟩
      · exact absurd (hlen.ge.trans (by simp)) hn

theorem text_eq_error_iff : text input = .error e rest ↔ Field.text.Refuses input e rest := by
  unfold text
  rw [bind_eq_error_iff]
  simp only [u32_eq_error_iff, u32_eq_ok_iff]
  constructor
  · rintro (⟨hlen, rfl, rfl⟩ | ⟨n, mid, rfl, h⟩)
    · exact .short hlen
    · obtain ⟨hlen, rfl, rfl⟩ | ⟨taken, hlen, hs, rfl, rfl⟩ := text_body_eq_error_iff.1 h
      · exact .length hlen
      · exact .encoding hlen hs
  · intro h
    cases h with
    | short hlen => exact .inl ⟨hlen, rfl, rfl⟩
    | length hlen => exact .inr ⟨_, rest, rfl, text_body_eq_error_iff.2 (.inl ⟨hlen, rfl, rfl⟩)⟩
    | encoding hlen hs =>
      exact .inr ⟨_, _, rfl, text_body_eq_error_iff.2 (.inr ⟨_, hlen, hs, rfl, rfl⟩)⟩

theorem optionalU64_eq_error_iff :
    optionalU64 input = .error e rest ↔ Field.optionalU64.Refuses input e rest := by
  unfold optionalU64
  rw [bind_eq_error_iff]
  simp only [u8_eq_error_iff, u8_eq_ok_iff_cons]
  constructor
  · rintro (⟨hlen, rfl, rfl⟩ | ⟨code, mid, rfl, h⟩)
    · exact .short hlen
    · -- the presence byte is taken; what can still fail is the number, or the byte itself
      split at h
      · exact absurd h pure_ne_error
      · simp only [bind_eq_error_iff, u64_eq_error_iff, pure_ne_error, and_false, exists_false,
          or_false] at h
        obtain ⟨hlen, rfl, rfl⟩ := h
        exact .number hlen
      · next hzero hone =>
        obtain ⟨rfl, rfl⟩ := throw_eq_error_iff.1 h
        exact .presence hzero hone
  · intro h
    cases h with
    | short hlen => exact .inl ⟨hlen, rfl, rfl⟩
    | number hlen =>
      exact .inr ⟨1, rest, rfl, bind_eq_error_iff.2 (.inl (u64_eq_error_iff.2 ⟨hlen, rfl, rfl⟩))⟩
    | presence hzero hone =>
      refine .inr ⟨_, rest, rfl, ?_⟩
      split
      · exact absurd rfl hzero
      · exact absurd rfl hone
      · exact throw_eq_error_iff.2 ⟨rfl, rfl⟩

end Reader

/-! ## One field -/

namespace Field

variable {f : Field} {input rest : Bytes} {e : AuctionError}

/-- **A read succeeds on the bytes of a value, and leaves the rest.** -/
theorem read_eq_ok_iff {a : f.Value} :
    f.read input = .ok a rest ↔ f.Fits a ∧ input = f.write a ++ rest := by
  cases f with
  | u8 => exact Layout.exact_u8 input a rest
  | u32 => exact Layout.exact_u32 input a rest
  | u64 => exact Layout.exact_u64 input a rest
  | address => exact Layout.exact_octets 32 input a rest
  | octets count => exact Layout.exact_octets count input a rest
  | bytes count => exact Reader.bytes_eq_ok_iff
  | text => exact Layout.exact_text input a rest
  | optionalU64 => exact Layout.exact_optionalU64 input a rest

/-- The fields of fixed width fail in one way only. -/
theorem refuses_iff_of_fixed (f : Field) (htext : f ≠ text) (hnumber : f ≠ optionalU64) :
    f.Refuses input e rest
      ↔ input.length < f.least ∧ e = .insufficientByteLength ∧ rest = input := by
  constructor
  · intro h
    cases h with
    | short hlen => exact ⟨hlen, rfl, rfl⟩
    | length => exact absurd rfl htext
    | encoding => exact absurd rfl htext
    | number => exact absurd rfl hnumber
    | presence => exact absurd rfl hnumber
  · rintro ⟨hlen, rfl, rfl⟩
    exact .short hlen

theorem read_eq_error_iff : f.read input = .error e rest ↔ f.Refuses input e rest := by
  cases f with
  | text => exact Reader.text_eq_error_iff
  | optionalU64 => exact Reader.optionalU64_eq_error_iff
  | u8 => exact Reader.u8_eq_error_iff.trans (refuses_iff_of_fixed u8 nofun nofun).symm
  | u32 => exact Reader.u32_eq_error_iff.trans (refuses_iff_of_fixed u32 nofun nofun).symm
  | u64 => exact Reader.u64_eq_error_iff.trans (refuses_iff_of_fixed u64 nofun nofun).symm
  | address =>
    exact Reader.octets_eq_error_iff.trans (refuses_iff_of_fixed address nofun nofun).symm
  | octets n =>
    exact Reader.octets_eq_error_iff.trans (refuses_iff_of_fixed (octets n) nofun nofun).symm
  | bytes n =>
    exact Reader.bytes_eq_error_iff.trans (refuses_iff_of_fixed (bytes n) nofun nofun).symm

/-- Every way to fail but the first takes bytes. -/
theorem Refuses.rest_eq_iff (h : f.Refuses input e rest) :
    rest = input ↔ input.length < f.least := by
  cases h with
  | short hlen => simp [hlen]
  | length => simp [least, ← List.length_eq_zero_iff]
  | encoding => simp [least, ← List.length_eq_zero_iff, ← List.append_assoc, Nat.add_assoc]
  | number => simp [least]
  | presence => simp [least]

/-- **What a read takes, in full.** If it succeeds, the bytes of the value. If it fails, what its
way to fail says, and that is nothing exactly if not even the shortest value was there. -/
theorem read_outcome (f : Field) (input : Bytes) :
    (∀ a rest, f.read input = .ok a rest ↔ f.Fits a ∧ input = f.write a ++ rest) ∧
    (∀ e rest, f.read input = .error e rest ↔ f.Refuses input e rest) ∧
    (∀ e rest, f.read input = .error e rest → (rest = input ↔ input.length < f.least)) := by
  refine ⟨fun _ _ => read_eq_ok_iff, fun _ _ => read_eq_error_iff, ?_⟩
  intro e rest h
  exact (read_eq_error_iff.1 h).rest_eq_iff

/-- **A failed read can take bytes**: a text that says ten bytes and has two, and an optional number
with a presence byte of two. -/
theorem failed_read_takes :
    text.read [10, 0, 0, 0, 97, 98] = .error .invalidStringLength [97, 98] ∧
    optionalU64.read [2, 7] = .error .invalidOptionTag [7] ∧
    ¬ ∀ (f : Field) (input : Bytes) (e : AuctionError) (rest : Bytes),
      f.read input = .error e rest → rest = input := by
  have htext : text.read [10, 0, 0, 0, 97, 98] = .error .invalidStringLength [97, 98] :=
    read_eq_error_iff.2 (.length (n := 10) (by decide))
  have hnumber : optionalU64.read [2, 7] = .error .invalidOptionTag [7] :=
    read_eq_error_iff.2 (.presence (by decide) (by decide))
  refine ⟨htext, hnumber, fun hnothing => ?_⟩
  have hrest := hnothing text _ _ _ htext
  exact absurd hrest (by decide)

end Field

end DomainAuction
