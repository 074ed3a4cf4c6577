import DomainAuction.Derivation.DerivedAccount

/-!
# Preimages — what a hashed byte string says about an address

The seeds of an address are hashed without marks between them. Behind them come always 54 bytes, the
bump, the program and a fixed text, so the last bytes tell these apart from the seeds. The kinds of
records differ in the length of their seeds, except that the central state and the state of a sale
have one address as their seed both; and within a kind each seed has its place. So the hashed bytes
tell which record was meant.
-/

namespace DomainAuction

/-- What has a fixed length is told apart from what follows. -/
theorem Octets.append_toList_inj {n : Nat} {a b : Octets n} {s t : Bytes}
    (h : a.toList ++ s = b.toList ++ t) : a = b ∧ s = t := by
  obtain ⟨hfirst, hrest⟩ := List.append_inj h (a.length_toList.trans b.length_toList.symm)
  exact ⟨ext_toList hfirst, hrest⟩

namespace Derivation

variable {d e : Derivation} {i j : UInt8}

/-- The hashed bytes tell the bump, the program and the seeds, though not where a seed ends. -/
theorem preimage_eq_iff :
    d.preimage i = e.preimage j
      ↔ d.seeds.flatten = e.seeds.flatten ∧ i = j ∧ d.program = e.program := by
  constructor
  · intro h
    have hfront : d.seeds.flatten ++ i :: d.program.toList
        = e.seeds.flatten ++ j :: e.program.toList := List.append_cancel_right h
    have hlen : (i :: d.program.toList).length = (j :: e.program.toList).length := by
      simp [Octets.length_toList]
    obtain ⟨hseeds, htail⟩ := List.append_inj' hfront hlen
    obtain ⟨hbump, hprogram⟩ := List.cons.inj htail
    exact ⟨hseeds, hbump, Octets.ext_toList hprogram⟩
  · rintro ⟨hseeds, rfl, hprogram⟩
    simp only [preimage, hseeds, hprogram]

end Derivation

namespace DerivedAccount

/-- Two ways to name one record. They are the same kind with the same program and arguments, except
that an absent class or parent is the zero address, and that the central state of a program is the
state of a sale of the program itself. -/
inductive Coincides : DerivedAccount → DerivedAccount → Prop
  | same (a : DerivedAccount) : Coincides a a
  | absent (program : Address) (hashedName : Digest) {c c' p p' : Option Address} :
    c.getD (.zero 32) = c'.getD (.zero 32) → p.getD (.zero 32) = p'.getD (.zero 32) →
    Coincides (.name program hashedName c p) (.name program hashedName c' p')
  | ownSale (program : Address) :
    Coincides (.centralState program) (.auctionState program program)
  | saleOfProgram (program : Address) :
    Coincides (.auctionState program program) (.centralState program)

variable {a b : DerivedAccount}

/-- Records that coincide have the same derivation. -/
theorem Coincides.derivation_eq (h : a.Coincides b) : a.derivation = b.derivation := by
  cases h with
  | same => rfl
  | absent program hash hclass hparent => simp only [derivation, hclass, hparent]
  | ownSale program => rfl
  | saleOfProgram program => rfl

theorem Coincides.of_name {program program' : Address} {hash hash' : Digest}
    {c c' p p' : Option Address}
    (h : (name program hash c p).Coincides (name program' hash' c' p')) :
    program = program' ∧ hash = hash' ∧ c.getD (.zero 32) = c'.getD (.zero 32)
      ∧ p.getD (.zero 32) = p'.getD (.zero 32) := by
  cases h with
  | same => exact ⟨rfl, rfl, rfl, rfl⟩
  | absent program hash hclass hparent => exact ⟨rfl, rfl, hclass, hparent⟩

theorem Coincides.of_auctionState {program program' account account' : Address}
    (h : (auctionState program account).Coincides (auctionState program' account')) :
    program = program' ∧ account = account' := by
  cases h
  exact ⟨rfl, rfl⟩

theorem Coincides.of_resellingState {program program' account account' : Address}
    (h : (resellingState program account).Coincides (resellingState program' account')) :
    program = program' ∧ account = account' := by
  cases h
  exact ⟨rfl, rfl⟩

theorem Coincides.of_auction {program program' account account' : Address}
    (h : (auction program account).Coincides (auction program' account')) :
    program = program' ∧ account = account' := by
  cases h
  exact ⟨rfl, rfl⟩

/-- The state of a sale is no record of a resale. -/
theorem not_coincides_resellingState {program program' account account' : Address} :
    ¬ (auctionState program account).Coincides (resellingState program' account') := by
  rintro ⟨⟩

/-- How many bytes of seeds each kind of record has. -/
def seedLength : DerivedAccount → Nat
  | name .. => 96
  | centralState .. => 32
  | auctionState .. => 32
  | resellingState .. => 34
  | auction .. => 71
  | bidderPot .. => 103

theorem length_seeds (a : DerivedAccount) : a.derivation.seeds.flatten.length = a.seedLength := by
  have hmark : (utf8 "auction").length = 7 := by decide
  cases a <;> simp [derivation, seedLength, Octets.length_toList, hmark]

/-- The seeds of a record, without marks between them, tell the record. -/
theorem coincides_of_seeds (hprogram : a.derivation.program = b.derivation.program)
    (hseeds : a.derivation.seeds.flatten = b.derivation.seeds.flatten) : a.Coincides b := by
  have hlen : a.seedLength = b.seedLength := by rw [← length_seeds, ← length_seeds, hseeds]
  cases a with
  | name program hash c p =>
    cases b with
    | name program' hash' c' p' =>
      cases hprogram
      simp only [derivation, List.flatten_cons, List.flatten_nil] at hseeds
      obtain ⟨rfl, hrest⟩ := Octets.append_toList_inj hseeds
      obtain ⟨hclass, hlast⟩ := Octets.append_toList_inj hrest
      obtain ⟨hparent, -⟩ := Octets.append_toList_inj hlast
      exact .absent program hash hclass hparent
    | _ => cases hlen
  | centralState program =>
    cases b with
    | centralState program' =>
      cases hprogram
      exact .same _
    | auctionState program' account =>
      cases hprogram
      simp only [derivation, List.flatten_cons, List.flatten_nil] at hseeds
      obtain ⟨rfl, -⟩ := Octets.append_toList_inj hseeds
      exact .ownSale program
    | _ => cases hlen
  | auctionState program account =>
    cases b with
    | centralState program' =>
      cases hprogram
      simp only [derivation, List.flatten_cons, List.flatten_nil] at hseeds
      obtain ⟨rfl, -⟩ := Octets.append_toList_inj hseeds
      exact .saleOfProgram account
    | auctionState program' account' =>
      cases hprogram
      simp only [derivation, List.flatten_cons, List.flatten_nil] at hseeds
      obtain ⟨rfl, -⟩ := Octets.append_toList_inj hseeds
      exact .same _
    | _ => cases hlen
  | resellingState program account =>
    cases b with
    | resellingState program' account' =>
      cases hprogram
      simp only [derivation, List.flatten_cons, List.flatten_nil] at hseeds
      obtain ⟨rfl, -⟩ := Octets.append_toList_inj hseeds
      exact .same _
    | _ => cases hlen
  | auction program account =>
    cases b with
    | auction program' account' =>
      cases hprogram
      simp only [derivation, List.flatten_cons, List.flatten_nil] at hseeds
      obtain ⟨-, hrest⟩ := Octets.append_toList_inj (List.append_cancel_left hseeds)
      obtain ⟨rfl, -⟩ := Octets.append_toList_inj hrest
      exact .same _
    | _ => cases hlen
  | bidderPot program account bidder =>
    cases b with
    | bidderPot program' account' bidder' =>
      cases hprogram
      simp only [derivation, List.flatten_cons, List.flatten_nil] at hseeds
      obtain ⟨-, hrest⟩ := Octets.append_toList_inj (List.append_cancel_left hseeds)
      obtain ⟨rfl, hlast⟩ := Octets.append_toList_inj hrest
      obtain ⟨rfl, -⟩ := Octets.append_toList_inj hlast
      exact .same _
    | _ => cases hlen

/-- **The hashed bytes tell the record and the bump.** -/
theorem preimage_eq_iff_coincides {i j : UInt8} :
    a.derivation.preimage i = b.derivation.preimage j ↔ a.Coincides b ∧ i = j := by
  rw [Derivation.preimage_eq_iff]
  constructor
  · rintro ⟨hseeds, hbump, hprogram⟩
    exact ⟨coincides_of_seeds hprogram hseeds, hbump⟩
  · rintro ⟨hsame, hbump⟩
    rw [hsame.derivation_eq]
    exact ⟨rfl, hbump, rfl⟩

end DerivedAccount

end DomainAuction
