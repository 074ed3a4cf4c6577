import DomainAuction.Derivation.ProgramAddress

/-!
# Bumps — which bump an address has

The search for an address goes down from the largest byte and ends with the first hash that is no
point of the curve, or without an address when only zero is left. Either way the address of a record
is a hash of its seeds.
-/

namespace DomainAuction.Derivation

open Edwards25519 (isPoint)

variable {d : Derivation} {start bump : Nat} {found : Address × UInt8}

/-- The hash for `bump` is no point, and those from `start` down to it are. Zero does not count. -/
structure FirstBump (d : Derivation) (start bump : Nat) : Prop where
  pos : 0 < bump
  le : bump ≤ start
  noPoint : isPoint (d.candidate (UInt8.ofNat bump)) = false
  points : ∀ above : Nat, bump < above → above ≤ start →
    isPoint (d.candidate (UInt8.ofNat above)) = true

theorem firstBump_of_noPoint (h : isPoint (d.candidate (UInt8.ofNat (start + 1))) = false) :
    d.FirstBump (start + 1) bump ↔ bump = start + 1 := by
  constructor
  · intro hfirst
    obtain hle | rfl := Nat.le_succ_iff.1 hfirst.le
    · have hpoint := hfirst.points (start + 1) (Nat.lt_succ_of_le hle) (Nat.le_refl _)
      rw [h] at hpoint
      cases hpoint
    · rfl
  · rintro rfl
    refine ⟨Nat.succ_pos start, Nat.le_refl _, h, fun above hlt hle => ?_⟩
    exact absurd (Nat.lt_of_lt_of_le hlt hle) (Nat.lt_irrefl _)

theorem firstBump_of_point (h : isPoint (d.candidate (UInt8.ofNat (start + 1))) = true) :
    d.FirstBump (start + 1) bump ↔ d.FirstBump start bump := by
  constructor
  · intro hfirst
    obtain hle | rfl := Nat.le_succ_iff.1 hfirst.le
    · exact ⟨hfirst.pos, hle, hfirst.noPoint,
        fun above hlt habove => hfirst.points above hlt (Nat.le_succ_of_le habove)⟩
    · have hnone := hfirst.noPoint
      rw [h] at hnone
      cases hnone
  · intro hfirst
    refine ⟨hfirst.pos, Nat.le_succ_of_le hfirst.le, hfirst.noPoint, fun above hlt hle => ?_⟩
    obtain hle | rfl := Nat.le_succ_iff.1 hle
    · exact hfirst.points above hlt hle
    · exact h

/-- **A search finds the first bump whose hash is no point.** -/
theorem search_eq_some_iff : d.search start = some found ↔
    ∃ bump, d.FirstBump start bump ∧ found = (d.candidate (UInt8.ofNat bump), UInt8.ofNat bump) := by
  induction start with
  | zero =>
    refine iff_of_false nofun ?_
    rintro ⟨bump, hfirst, -⟩
    exact absurd (Nat.lt_of_lt_of_le hfirst.pos hfirst.le) (Nat.lt_irrefl 0)
  | succ start ih =>
    simp only [search]
    split
    · next hpoint =>
      simp only [firstBump_of_point hpoint]
      exact ih
    · next hnone =>
      rw [Bool.not_eq_true] at hnone
      simp only [firstBump_of_noPoint hnone, exists_eq_left, Option.some.injEq, eq_comm]

/-- The address that is found is the hash for the bump that is found. -/
theorem candidate_find (d : Derivation) : d.candidate d.find.2 = d.find.1 := by
  rw [find]
  cases hfind : d.find? with
  | none => rw [Option.getD_none]
  | some found =>
    rw [find?, search_eq_some_iff] at hfind
    obtain ⟨bump, -, rfl⟩ := hfind
    rw [Option.getD_some]

end DomainAuction.Derivation
