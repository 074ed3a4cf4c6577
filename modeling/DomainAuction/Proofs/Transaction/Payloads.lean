import DomainAuction.Transaction.Payloads

/-!
# Payloads — which instructions of a message are for a program

An instruction is for a program if its index is the place of the program among the keys of the
message. An index that no key has, or data that do not decode, drop the instruction and move no
other: each payload keeps the place that its instruction has in the message.
-/

namespace DomainAuction.Message

variable {m : Message} {program : Address} {version : ProtocolVersion}

/-- A payload is found in an instruction whose index names the program and whose data decode. -/
theorem payloadOf_eq_some_iff {i : CompiledInstruction} {p : Payload} :
    m.payloadOf program version i = some p
      ↔ m.accountKeys[i.programIndex.toNat]? = some program
        ∧ Payload.decode i.data version = .ok p := by
  unfold payloadOf
  split
  · next hkey =>
    cases Payload.decode i.data version <;> simp [hkey, Except.toOption]
  · next hkey => simp [hkey]

/-- **A payload and its place are those of an instruction to the program that decodes.** -/
theorem mem_payloads_iff {place : Nat} {p : Payload} :
    (place, p) ∈ m.payloads program version
      ↔ ∃ i, m.instructions[place]? = some i
        ∧ m.accountKeys[i.programIndex.toNat]? = some program
        ∧ Payload.decode i.data version = .ok p := by
  unfold payloads
  simp only [List.mem_filterMap, Prod.exists, List.mk_mem_zipIdx_iff_getElem?,
    Option.map_eq_some_iff, Prod.mk.injEq, payloadOf_eq_some_iff]
  constructor
  · rintro ⟨i, place', hi, p', hp, rfl, rfl⟩
    exact ⟨i, hi, hp⟩
  · rintro ⟨i, hi, hp⟩
    exact ⟨i, place, hi, p, hp, rfl, rfl⟩

/-- Payloads come in the order of their places, and no place has two. -/
theorem payloads_ordered : (m.payloads program version).Pairwise fun a b => a.1 < b.1 := by
  have hplaces : m.instructions.zipIdx.Pairwise fun a b => a.2 < b.2 := by
    rw [← List.pairwise_map (f := Prod.snd) (R := (· < ·)), List.zipIdx_map_snd]
    exact List.pairwise_lt_range' 1
  refine hplaces.filterMap _ ?_
  rintro ⟨i, a⟩ ⟨j, b⟩ hlt x hx y hy
  obtain ⟨p, -, rfl⟩ := Option.map_eq_some_iff.1 hx
  obtain ⟨q, -, rfl⟩ := Option.map_eq_some_iff.1 hy
  exact hlt

end DomainAuction.Message
