import DomainAuction.Proofs.Deployment.Changes
import DomainAuction.Proofs.Domain.Addresses
import DomainAuction.Proofs.Operation.Places
import DomainAuction.Proofs.Operation.Roles

/-!
# CentralState — one central state for everything that a deployment does

The central state of a program is derived from the program. A deployment holds it as a part of its
own, which most operations name and under which reverse lookups are filed, while its creation derives
it again. The two are one account in the deployments that exist and in all that changes make of them,
since only the change of the program touches either, and it changes both.
-/

namespace DomainAuction

/-! ## Where operations name it -/

namespace Form

/-- All forms but one have a place for the central state. -/
theorem centralState_mem_mandatory_iff (form : Form) :
    .centralState ∈ form.mandatory.map Place.role ↔ form ≠ .legacyCreateAuction := by
  cases form with
  | claim isResell => cases isResell <;> decide
  | _ => decide

theorem centralState_not_mem_tail (form : Form) : .centralState ∉ form.tail.map Place.role := by
  cases form with
  | claim isResell => exact (by decide : Role.centralState ∉ [Role.referrer])
  | _ => decide

end Form

namespace Operation

variable {op : Operation} {x : Domain}

theorem centralState_place_iff :
    (∃ k : Nat, op.places[k]?.map Place.role = some .centralState)
      ↔ op.form ≠ .legacyCreateAuction := by
  have hplaces : .centralState ∈ op.places.map Place.role
      ↔ .centralState ∈ op.form.mandatory.map Place.role := by
    rw [places, List.map_append, List.mem_append, or_iff_left]
    obtain htail | ⟨hnone, -⟩ := op.optional_cases
    · rw [htail]
      exact op.form.centralState_not_mem_tail
    · rw [hnone]
      exact List.not_mem_nil
  rw [← op.form.centralState_mem_mandatory_iff, ← hplaces, List.mem_iff_getElem?]
  simp only [List.getElem?_map]

/-- **An operation on a domain gives the central state of its deployment.** -/
theorem On.centralState_eq (h : op.On x) {a : Address} (ha : op.account .centralState = some a) :
    a = x.deployment.centralState := by
  cases h with
  | legacyCreateAuction => cases ha
  | _ => exact (Option.some.inj ha).symm

end Operation

namespace Deployment

variable {d : Deployment}

/-! ## What is held is what is derived -/

/-- The central state that a deployment holds is the one of its program. -/
def HoldsDerivedState (d : Deployment) : Prop :=
  d.centralState = (DerivedAccount.centralState d.programId).address

/-- The one central state that is written down and not derived. -/
theorem holdsDerivedState_mainnet : mainnet.HoldsDerivedState := by
  unfold HoldsDerivedState
  decide +kernel

theorem holdsDerivedState_withProgram (d : Deployment) (programId : Address) :
    (d.withProgram programId).HoldsDerivedState := by
  simp only [HoldsDerivedState, withProgram]

theorem holdsDerivedState_legacyDevnet : legacyDevnet.HoldsDerivedState :=
  holdsDerivedState_withProgram _ _

/-- **Every change keeps it**: that of the program derives both anew, the others touch neither. -/
theorem HoldsDerivedState.apply (h : d.HoldsDerivedState) (c : Change) :
    (d.apply c).HoldsDerivedState := by
  cases c with
  | program programId => exact holdsDerivedState_withProgram d programId
  | _ => exact h

theorem HoldsDerivedState.changed (h : d.HoldsDerivedState) (changes : List Change) :
    (d.changed changes).HoldsDerivedState := by
  induction changes generalizing d with
  | nil => exact h
  | cons c changes ih => exact ih (h.apply c)

/-! ## One account for everything -/

/-- The account `state`, with the bump `nonce`, is the central state in all that a deployment does. -/
structure HasCentralState (d : Deployment) (state : Address) (nonce : UInt8) : Prop where
  derived : (DerivedAccount.centralState d.programId).find = (state, nonce)
  held : d.centralState = state
  /-- Its creation is built, names it first and brings its bump. -/
  created : ∀ feePayer, ∃ i, (d.initCentralState feePayer).build d = .ok i ∧
    i.accounts.head? = some (.writes state) ∧ Payload.decode i.data d.version = .ok (.init nonce)
  /-- Each operation on a domain has it in the place of the central state, and all forms have such a
  place but one. -/
  named : ∀ (x : Domain) (op : Operation) (i : Instruction), x.deployment = d → op.On x →
    op.build d = .ok i →
      ((∃ k : Nat, op.places[k]?.map Place.role = some .centralState)
        ↔ op.form ≠ .legacyCreateAuction) ∧
      ∀ k : Nat, op.places[k]?.map Place.role = some .centralState →
        ∃ m, i.accounts[k]? = some m ∧ m.address = state
  /-- Reverse lookups are filed in its class. -/
  filed : ∀ nameAccount, d.reverseLookup nameAccount
    = (DerivedAccount.name d.namingServiceProgram (hashName nameAccount.toBase58) (some state)
        none).address

/-- What creates the central state is built in every protocol. -/
theorem initCentralState_build {state feePayer : Address} {nonce : UInt8}
    (h : (DerivedAccount.centralState d.programId).find = (state, nonce)) :
    ∃ i, (d.initCentralState feePayer).build d = .ok i ∧
      i.accounts.head? = some (.writes state) ∧
      Payload.decode i.data d.version = .ok (.init nonce) := by
  rw [initCentralState_of_find h]
  have hs : (Operation.init ⟨state, systemProgram, feePayer, rentSysvar⟩ nonce).payload.supportedIn
      d.version = true := by
    cases d.version <;> rfl
  obtain ⟨metas, haccounts, hbuild⟩ := Operation.build_of_validate hs rfl
  obtain ⟨-, hmetas⟩ := Operation.accounts_eq_ok_iff.1 haccounts
  obtain rfl := Except.ok.inj hmetas
  exact ⟨_, hbuild, rfl, Payload.decode_encode hs (List.forall_mem_nil _)⟩

theorem HoldsDerivedState.hasCentralState (h : d.HoldsDerivedState) :
    ∃ state nonce, d.HasCentralState state nonce := by
  generalize hfind : (DerivedAccount.centralState d.programId).find = found
  obtain ⟨state, nonce⟩ := found
  have hheld : d.centralState = state := by
    rw [HoldsDerivedState.eq_1] at h
    rw [h, DerivedAccount.address_eq_find, hfind]
  refine ⟨state, nonce, hfind, hheld, fun _ => initCentralState_build hfind, ?_, ?_⟩
  · intro x op i hx hon hbuild
    refine ⟨Operation.centralState_place_iff, fun k hk => ?_⟩
    obtain ⟨-, hvalid⟩ := Operation.build_eq_ok_iff.1 ⟨i, hbuild⟩
    obtain ⟨m, hm, haccount⟩ :=
      Operation.account_of_place hvalid (Operation.metas_of_build hbuild) hk
    exact ⟨m, hm, by rw [hon.centralState_eq haccount, hx, hheld]⟩
  · intro nameAccount
    rw [reverseLookup, hheld]

/-- **Deployments agree with themselves about their central state**, those that exist and all that
changes make of them. A change sets what it is named for and leaves alone all else, but for the
central state if it is that of the program; so changes of different names commute. -/
theorem hasCentralState_of_changed {base : Deployment} (hbase : base = mainnet ∨ base = legacyDevnet)
    (changes : List Change) :
    (∃ state nonce, (base.changed changes).HasCentralState state nonce) ∧
    (∀ (d : Deployment) (c : Change),
      (∀ set ∈ c.sets, (d.apply c).part set.1 = set.2) ∧
      ∀ p, p ≠ c.namesake → (c.namesake = .programId → p ≠ .centralState) →
        (d.apply c).part p = d.part p) ∧
    (∀ (d : Deployment) (c c' : Change), c.namesake ≠ c'.namesake →
      (d.apply c).apply c' = (d.apply c').apply c) := by
  refine ⟨?_, fun d c => ⟨fun set => part_apply_of_mem_sets, fun p hname hstate => ?_⟩,
    fun d c c' => apply_comm⟩
  · have hholds : base.HoldsDerivedState := by
      obtain rfl | rfl := hbase
      · exact holdsDerivedState_mainnet
      · exact holdsDerivedState_legacyDevnet
    exact (hholds.changed changes).hasCentralState
  · refine part_apply_of_ne fun hfollows => ?_
    obtain heq | ⟨heq, hprogram⟩ := Part.eq_of_follows hfollows.symm
    · exact hname heq
    · exact hstate hprogram heq

/-- The first test deployment with another program, which speaks the newer protocol. -/
def renewedDevnet : Deployment :=
  legacyDevnet.changed [.program (.ofNat 32 7), .rootDomain (.ofNat 32 9), .version .current]

/-- A name is taken back with the account that was created, in the fourth place; the change of the
program keeps the root domain, and commutes with that of the version. -/
theorem hasCentralState_of_renewedDevnet :
    (∃ i j state, (renewedDevnet.initCentralState (.ofNat 32 1)).build renewedDevnet = .ok i ∧
      i.accounts.head? = some (.writes state) ∧
      (Domain.underRoot renewedDevnet "sol").takeBack.build renewedDevnet = .ok j ∧
      ∃ m, j.accounts[3]? = some m ∧ m.address = state) ∧
    (legacyDevnet.withProgram (.ofNat 32 7)).part .rootDomain = legacyDevnet.part .rootDomain ∧
    (legacyDevnet.withProgram (.ofNat 32 7)).withVersion .current
      = (legacyDevnet.withVersion .current).withProgram (.ofNat 32 7) := by
  obtain ⟨⟨state, nonce, hstate⟩, hchange, hcomm⟩ := hasCentralState_of_changed (.inr rfl)
    [.program (.ofNat 32 7), .rootDomain (.ofNat 32 9), .version .current]
  obtain ⟨i, hcreate, hfirst, -⟩ := hstate.created (.ofNat 32 1)
  have hon := Operation.On.takeBack (x := Domain.underRoot renewedDevnet "sol")
  obtain ⟨j, hbuild⟩ := hon.exists_build rfl id
  obtain ⟨-, hnamed⟩ := hstate.named _ _ j rfl hon hbuild
  exact ⟨⟨i, j, state, hcreate, hfirst, hbuild, hnamed 3 rfl⟩,
    (hchange legacyDevnet (.program (.ofNat 32 7))).2 .rootDomain (by decide) (by decide),
    hcomm legacyDevnet (.program (.ofNat 32 7)) (.version .current) (by decide)⟩

end Deployment

end DomainAuction
