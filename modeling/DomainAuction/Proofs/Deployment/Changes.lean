import DomainAuction.Deployment

/-!
# Changes — a deployment made from another one

A change sets the part of a deployment that it is named for. The change of the program sets the
central state with it, and nothing else sets the central state. All other parts stay as they were.
So the last change that sets a part decides it, and a row of changes may be put in another order as
long as those of the same name keep theirs.
-/

namespace DomainAuction

attribute [ext] Deployment

namespace Deployment

/-! ## Parts and changes -/

inductive Part where
  | version | programId | centralState | namingServiceProgram | auctionProgram | rootDomain
  | priceOracle | solVault | fidaVault | usdcVault | fidaMint | usdcMint | admin
  deriving DecidableEq

/-- What stands in a part. -/
inductive Part.Content where
  | version (version : ProtocolVersion)
  | address (address : Address)

def part (d : Deployment) : Part → Part.Content
  | .version => .version d.version
  | .programId => .address d.programId
  | .centralState => .address d.centralState
  | .namingServiceProgram => .address d.namingServiceProgram
  | .auctionProgram => .address d.auctionProgram
  | .rootDomain => .address d.rootDomain
  | .priceOracle => .address d.priceOracle
  | .solVault => .address d.solVault
  | .fidaVault => .address d.fidaVault
  | .usdcVault => .address d.usdcVault
  | .fidaMint => .address d.fidaMint
  | .usdcMint => .address d.usdcMint
  | .admin => .address d.admin

/-- The ways to make a deployment from another one. -/
inductive Change where
  | program (programId : Address)
  | version (version : ProtocolVersion)
  | auctionProgram (auctionProgram : Address)
  | rootDomain (rootDomain : Address)

def apply (d : Deployment) : Change → Deployment
  | .program programId => d.withProgram programId
  | .version version => d.withVersion version
  | .auctionProgram auctionProgram => d.withAuctionProgram auctionProgram
  | .rootDomain rootDomain => d.withRootDomain rootDomain

/-- The deployment after a row of changes. -/
def changed (d : Deployment) (changes : List Change) : Deployment :=
  changes.foldl apply d

/-- The part that a change is named for. -/
def Change.namesake : Change → Part
  | program _ => .programId
  | version _ => .version
  | auctionProgram _ => .auctionProgram
  | rootDomain _ => .rootDomain

/-- The parts that a change sets, and what it sets them to. -/
def Change.sets : Change → List (Part × Part.Content)
  | program a =>
    [(.programId, .address a), (.centralState, .address (DerivedAccount.centralState a).address)]
  | version v => [(.version, .version v)]
  | auctionProgram a => [(.auctionProgram, .address a)]
  | rootDomain a => [(.rootDomain, .address a)]

/-- The part whose changes set a part: itself, but for the central state the program. -/
def Part.follows : Part → Part
  | centralState => programId
  | p => p

variable {d e : Deployment} {c c' : Change} {p : Part}

/-! ## One change -/

theorem eq_of_parts (h : ∀ p, d.part p = e.part p) : d = e := by
  have haddress : ∀ {a b : Address}, Part.Content.address a = .address b → a = b :=
    Part.Content.address.inj
  exact Deployment.ext (Part.Content.version.inj (h .version)) (haddress (h .programId))
    (haddress (h .centralState)) (haddress (h .namingServiceProgram))
    (haddress (h .auctionProgram)) (haddress (h .rootDomain)) (haddress (h .priceOracle))
    (haddress (h .solVault)) (haddress (h .fidaVault)) (haddress (h .usdcVault))
    (haddress (h .fidaMint)) (haddress (h .usdcMint)) (haddress (h .admin))

/-- Only the central state follows another part. -/
theorem Part.eq_of_follows {q : Part} (h : p.follows = q) :
    p = q ∨ p = .centralState ∧ q = .programId := by
  cases p with
  | centralState => exact .inr ⟨rfl, h.symm⟩
  | _ => exact .inl h

/-- **What a change does to a part.** -/
theorem part_apply (d : Deployment) (c : Change) (p : Part) :
    (d.apply c).part p = (c.sets.lookup p).getD (d.part p) := by
  cases c with
  | program a =>
    simp only [apply, withProgram, Change.sets]
    -- the address is only compared with itself, and must not be searched for
    generalize (DerivedAccount.centralState a).address = state
    cases p <;> rfl
  | _ => cases p <;> rfl

theorem part_apply_of_mem_sets {set : Part × Part.Content} (h : set ∈ c.sets) :
    (d.apply c).part set.1 = set.2 := by
  cases c with
  | program a =>
    simp only [Change.sets, List.mem_cons, List.not_mem_nil, or_false] at h
    obtain rfl | rfl := h
    · rfl
    · simp only [apply, withProgram, part]
  | _ =>
    obtain rfl := List.mem_singleton.1 h
    rfl

/-- All parts that a change sets follow its namesake. -/
theorem Change.follows_of_mem_sets {set : Part × Part.Content} (h : set ∈ c.sets) :
    set.1.follows = c.namesake := by
  cases c with
  | program a =>
    simp only [sets, List.mem_cons, List.not_mem_nil, or_false] at h
    obtain rfl | rfl := h <;> rfl
  | _ =>
    obtain rfl := List.mem_singleton.1 h
    rfl

theorem Change.lookup_sets (h : c.namesake ≠ p.follows) : c.sets.lookup p = none := by
  rw [List.lookup_eq_none_iff]
  intro set hset
  rw [bne_iff_ne]
  rintro rfl
  exact h (follows_of_mem_sets hset).symm

/-- **A change keeps every part that does not follow its namesake.** -/
theorem part_apply_of_ne (h : c.namesake ≠ p.follows) : (d.apply c).part p = d.part p := by
  rw [part_apply, Change.lookup_sets h, Option.getD_none]

/-! ## Rows of changes -/

/-- **The last change that sets a part decides it.** -/
theorem part_changed (d : Deployment) (changes : List Change) (p : Part) :
    (d.changed changes).part p
      = (changes.filterMap fun c => c.sets.lookup p).getLastD (d.part p) := by
  induction changes generalizing d with
  | nil => rfl
  | cons c changes ih =>
    have hrest : (d.changed (c :: changes)).part p
        = (changes.filterMap fun c => c.sets.lookup p).getLastD ((d.apply c).part p) :=
      ih (d.apply c)
    rw [hrest, part_apply, List.filterMap_cons]
    cases c.sets.lookup p with
    | none => rfl
    | some content => rw [Option.getD_some, List.getLastD_cons]

/-- Only the changes that a part follows matter to it. -/
theorem filterMap_lookup_sets (changes : List Change) (p : Part) :
    (changes.filter fun c => c.namesake = p.follows).filterMap (fun c => c.sets.lookup p)
      = changes.filterMap fun c => c.sets.lookup p := by
  rw [List.filterMap_filter]
  congr 1
  funext c
  by_cases h : c.namesake = p.follows
  · rw [if_pos (decide_eq_true h)]
  · rw [if_neg (by simpa using h), Change.lookup_sets h]

/-- **Rows of changes that agree for each name make the same deployment.** -/
theorem changed_congr {changes changes' : List Change}
    (h : ∀ q, (changes.filter fun c => c.namesake = q) = changes'.filter fun c => c.namesake = q) :
    d.changed changes = d.changed changes' := by
  apply eq_of_parts
  intro p
  rw [part_changed, part_changed, ← filterMap_lookup_sets, ← filterMap_lookup_sets changes', h]

/-- **Changes of different names commute.** -/
theorem apply_comm (h : c.namesake ≠ c'.namesake) : (d.apply c).apply c' = (d.apply c').apply c := by
  have hpair : d.changed [c, c'] = d.changed [c', c] := by
    refine changed_congr fun q => ?_
    by_cases hc : c.namesake = q
    · have hc' : c'.namesake ≠ q := fun hc' => h (hc.trans hc'.symm)
      simp [hc, hc']
    · simp [List.filter_cons, hc]
  exact hpair

end Deployment

end DomainAuction
