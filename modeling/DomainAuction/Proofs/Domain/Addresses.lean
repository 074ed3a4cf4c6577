import DomainAuction.Domain.Operations
import DomainAuction.Proofs.Derivation.Bumps
import DomainAuction.Proofs.Derivation.Preimages
import DomainAuction.Proofs.Text.Base58

/-!
# Addresses — different names have different accounts

Every address of a domain is a digest: of the seeds of its record, where the seeds may hold another
digest or an address in writing. What was hashed tells what it was hashed for, so two domains share
an address only if two different byte strings that were hashed for them have one digest.
-/

namespace DomainAuction

/-- No two of these byte strings have the same digest, unless they are equal. -/
def CollisionFree (inputs : List Bytes) : Prop :=
  ∀ a ∈ inputs, ∀ b ∈ inputs, sha256 a = sha256 b → a = b

/-- Byte strings whose digests are all different do not collide. -/
theorem CollisionFree.of_nodup {inputs : List Bytes} (h : (inputs.map sha256).Nodup) :
    CollisionFree inputs :=
  fun _ ha _ hb heq => List.inj_on_of_nodup_map h ha hb heq

/-! ## Records -/

namespace DerivedAccount

/-- The byte string whose digest is the address of a record. -/
def hashed (a : DerivedAccount) : Bytes :=
  a.derivation.preimage a.find.2

/-- The equation is one of functions: to compare its sides at a record, the search would be run. -/
theorem address_eq_find (a : DerivedAccount) : a.address = a.find.1 :=
  congrFun (show address = fun x => x.find.1 from rfl) a

theorem sha256_hashed (a : DerivedAccount) : sha256 a.hashed = a.address := by
  rw [hashed, address_eq_find, find, ← Derivation.candidate, Derivation.candidate_find]

variable {a b : DerivedAccount} {inputs : List Bytes}

/-- **One address, one record**, unless two different byte strings have one digest. -/
theorem coincides_of_address_eq (hfree : CollisionFree inputs) (ha : a.hashed ∈ inputs)
    (hb : b.hashed ∈ inputs) (h : a.address = b.address) : a.Coincides b := by
  rw [← sha256_hashed, ← sha256_hashed] at h
  exact (preimage_eq_iff_coincides.1 (hfree _ ha _ hb h)).1

end DerivedAccount

namespace Deployment

variable {d : Deployment} {feePayer : Address}

/-- As above, the definition is opened as a function, before it is applied. -/
theorem initCentralState_of_find {state : Address} {nonce : UInt8}
    (h : (DerivedAccount.centralState d.programId).find = (state, nonce)) :
    d.initCentralState feePayer = .init ⟨state, systemProgram, feePayer, rentSysvar⟩ nonce := by
  generalize hcreate : initCentralState = create
  delta initCentralState at hcreate
  subst hcreate
  beta_reduce
  rw [h]

/-- What creates the central state names its derived address and the bump of that address. -/
theorem initCentralState_eq : d.initCentralState feePayer
    = .init ⟨(DerivedAccount.centralState d.programId).address, systemProgram, feePayer, rentSysvar⟩
        (DerivedAccount.centralState d.programId).find.2 := by
  rewrite [DerivedAccount.address_eq_find]
  generalize hfind : (DerivedAccount.centralState d.programId).find = found
  obtain ⟨state, nonce⟩ := found
  exact initCentralState_of_find hfind

end Deployment

/-! ## Names -/

/-- The byte string whose digest a name is filed under. -/
def hashedText (name : String) : Bytes :=
  utf8 ("SPL Name Service" ++ name)

theorem hashedText_inj {s t : String} (h : hashedText s = hashedText t) : s = t :=
  String.append_right_inj _ |>.1 (utf8_inj h)

/-! ## Domains -/

namespace Domain

/-- The records of a domain: its name account, the reverse lookup of that, the state of its sale,
its resale and its auction. -/
def records (x : Domain) : List DerivedAccount :=
  [.name x.deployment.namingServiceProgram x.hashedName none (some x.parent),
   .name x.deployment.namingServiceProgram (hashName x.nameAccount.toBase58)
    (some x.deployment.centralState) none,
   .auctionState x.deployment.programId x.nameAccount,
   .resellingState x.deployment.programId x.nameAccount,
   .auction x.deployment.auctionProgram x.nameAccount]

/-- The byte strings whose digests the addresses of a domain rest on: its name and its name account
in writing, and the seeds of its records with their programs and bumps. -/
def hashed (x : Domain) : List Bytes :=
  [x.name, x.nameAccount.toBase58].map hashedText ++ x.records.map DerivedAccount.hashed

variable {x y : Domain} {a b : DerivedAccount}

/-- Records of two domains that have one address are one record. -/
theorem coincides_of_mem_records (hfree : CollisionFree (x.hashed ++ y.hashed))
    (ha : a ∈ x.records) (hb : b ∈ y.records) (h : a.address = b.address) : a.Coincides b := by
  refine DerivedAccount.coincides_of_address_eq hfree ?_ ?_ h
  · exact List.mem_append_left _ (List.mem_append_right _ (List.mem_map_of_mem ha))
  · exact List.mem_append_right _ (List.mem_append_right _ (List.mem_map_of_mem hb))

/-- Texts of two domains that have one hash are one text. -/
theorem eq_of_hashName_eq (hfree : CollisionFree (x.hashed ++ y.hashed)) {s t : String}
    (hs : s ∈ [x.name, x.nameAccount.toBase58]) (ht : t ∈ [y.name, y.nameAccount.toBase58])
    (h : hashName s = hashName t) : s = t := by
  apply hashedText_inj
  refine hfree _ ?_ _ ?_ h
  · exact List.mem_append_left _ (List.mem_append_left _ (List.mem_map_of_mem hs))
  · exact List.mem_append_right _ (List.mem_append_left _ (List.mem_map_of_mem ht))

/-- **The name account tells the name and the parent.** -/
theorem eq_of_nameAccount_eq (hfree : CollisionFree (x.hashed ++ y.hashed))
    (h : x.nameAccount = y.nameAccount) : x.name = y.name ∧ x.parent = y.parent := by
  obtain ⟨-, hname, -, hparent⟩ :=
    (coincides_of_mem_records hfree (by simp [records]) (by simp [records]) h).of_name
  exact ⟨eq_of_hashName_eq hfree (by simp) (by simp) hname, hparent⟩

/-- **Each record of a domain tells its name account.** -/
theorem nameAccount_eq_of_state_eq (hfree : CollisionFree (x.hashed ++ y.hashed))
    (h : x.state = y.state) : x.nameAccount = y.nameAccount :=
  (coincides_of_mem_records hfree (by simp [records]) (by simp [records]) h).of_auctionState.2

theorem nameAccount_eq_of_resellingState_eq (hfree : CollisionFree (x.hashed ++ y.hashed))
    (h : x.resellingState = y.resellingState) : x.nameAccount = y.nameAccount :=
  (coincides_of_mem_records hfree (by simp [records]) (by simp [records]) h).of_resellingState.2

theorem nameAccount_eq_of_auction_eq (hfree : CollisionFree (x.hashed ++ y.hashed))
    (h : x.auction = y.auction) : x.nameAccount = y.nameAccount :=
  (coincides_of_mem_records hfree (by simp [records]) (by simp [records]) h).of_auction.2

theorem nameAccount_eq_of_reverseLookup_eq (hfree : CollisionFree (x.hashed ++ y.hashed))
    (h : x.reverseLookup = y.reverseLookup) : x.nameAccount = y.nameAccount := by
  obtain ⟨-, htext, -, -⟩ :=
    (coincides_of_mem_records hfree (by simp [records]) (by simp [records]) h).of_name
  exact Octets.toBase58_inj (eq_of_hashName_eq hfree (by simp) (by simp) htext)

/-- No state of a sale is a record of a resale. -/
theorem state_ne_resellingState (hfree : CollisionFree (x.hashed ++ y.hashed)) :
    x.state ≠ y.resellingState := fun h =>
  DerivedAccount.not_coincides_resellingState
    (coincides_of_mem_records hfree (by simp [records]) (by simp [records]) h)

/-- The digests of a domain: the hashes of its two texts and the addresses of its records. -/
def digests (x : Domain) : List Digest :=
  [x.name, x.nameAccount.toBase58].map hashName ++ x.records.map DerivedAccount.address

theorem map_sha256_hashed (x : Domain) : x.hashed.map sha256 = x.digests := by
  have htexts : ∀ texts : List String, texts.map (sha256 ∘ hashedText) = texts.map hashName :=
    fun texts => List.map_congr_left fun _ _ => rfl
  have hrecords : x.records.map (sha256 ∘ DerivedAccount.hashed)
      = x.records.map DerivedAccount.address :=
    List.map_congr_left fun a _ => a.sha256_hashed
  rw [hashed, digests, List.map_append, List.map_map, List.map_map, htexts, hrecords]

theorem collisionFree_of_nodup (h : (x.digests ++ y.digests).Nodup) :
    CollisionFree (x.hashed ++ y.hashed) := by
  apply CollisionFree.of_nodup
  rwa [List.map_append, map_sha256_hashed, map_sha256_hashed]

end Domain

/-! ## Records and domains together -/

/-- **No two records share what is hashed for them.** Hashed byte strings are equal only for records
that coincide, and one bump. So, unless two different byte strings that were hashed for two domains
have one digest, no state of a sale is a record of a resale, and two domains that differ in their
name or parent differ in every address. -/
theorem no_shared_preimage :
    (∀ (a b : DerivedAccount) (i j : UInt8),
      a.derivation.preimage i = b.derivation.preimage j ↔ a.Coincides b ∧ i = j) ∧
    (∀ x y : Domain, CollisionFree (x.hashed ++ y.hashed) →
      x.state ≠ y.resellingState ∧
      (x.name ≠ y.name ∨ x.parent ≠ y.parent →
        x.nameAccount ≠ y.nameAccount ∧ x.state ≠ y.state ∧
        x.resellingState ≠ y.resellingState ∧ x.auction ≠ y.auction ∧
        x.reverseLookup ≠ y.reverseLookup)) := by
  refine ⟨fun a b i j => DerivedAccount.preimage_eq_iff_coincides, fun x y hfree => ?_⟩
  refine ⟨Domain.state_ne_resellingState hfree, fun hne => ?_⟩
  have hname : x.nameAccount ≠ y.nameAccount := fun h => by
    obtain ⟨hname, hparent⟩ := Domain.eq_of_nameAccount_eq hfree h
    exact hne.elim (· hname) (· hparent)
  exact ⟨hname, fun h => hname (Domain.nameAccount_eq_of_state_eq hfree h),
    fun h => hname (Domain.nameAccount_eq_of_resellingState_eq hfree h),
    fun h => hname (Domain.nameAccount_eq_of_auction_eq hfree h),
    fun h => hname (Domain.nameAccount_eq_of_reverseLookup_eq hfree h)⟩

/-- Two names under the root domain, for which nothing collides. -/
theorem addresses_of_two_names :
    CollisionFree ((Domain.underRoot .mainnet "k").hashed
        ++ (Domain.underRoot .mainnet "l").hashed) ∧
      (Domain.underRoot .mainnet "k").state ≠ (Domain.underRoot .mainnet "l").state ∧
      (Domain.underRoot .mainnet "k").reverseLookup
        ≠ (Domain.underRoot .mainnet "l").reverseLookup := by
  have hfree : CollisionFree ((Domain.underRoot .mainnet "k").hashed
      ++ (Domain.underRoot .mainnet "l").hashed) :=
    Domain.collisionFree_of_nodup (by decide +kernel)
  obtain ⟨-, hdiffer⟩ := no_shared_preimage.2 _ _ hfree
  obtain ⟨-, hstate, -, -, hreverse⟩ := hdiffer (.inl (by decide))
  exact ⟨hfree, hstate, hreverse⟩

end DomainAuction
