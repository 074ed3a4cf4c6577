import DomainAuction.Proofs.Operation.Building

/-!
# Roles — which account stands where in the list of an operation

The program knows its accounts by their place in a list, and each form of operation has its own
list. The lists are written down here as tables of roles and rights. An operation gives an account
for each role, and its list is read off the table of its form: the mandatory places first, then the
optional ones if all of them are given.
-/

namespace DomainAuction

/-- What an account is to an operation. -/
inductive Role where
  | rentSysvar | clockSysvar | systemProgram | tokenProgram | namingServiceProgram | auctionProgram
  | rootDomain | nameAccount | reverseLookup | parentName
  | centralState | state | resellingState | auction
  | priceOracle | quoteMint | quoteVault | solVault | discountAccount | buyNow | referrer
  | destinationToken | bidderPot | bidderPotToken | buyerTokenSource
  | feePayer | bidderWallet | nameOwner | parentNameOwner | auctionCreator | buyer | admin
  /-- The zero address, where the program reads a place and uses nothing. -/
  | placeholder
  deriving DecidableEq

/-- A place in a list of accounts: whose account stands there, and with which rights. -/
structure Place where
  role : Role
  isSigner : Bool
  isWritable : Bool
  deriving DecidableEq

namespace Place

def reads (role : Role) : Place := ⟨role, false, false⟩

def writes (role : Role) : Place := ⟨role, false, true⟩

def readsSigned (role : Role) : Place := ⟨role, true, false⟩

def writesSigned (role : Role) : Place := ⟨role, true, true⟩

/-- An account in this place. -/
def grant (p : Place) (a : Address) : AccountMeta := ⟨a, p.isSigner, p.isWritable⟩

theorem grant_injective (p : Place) : Function.Injective p.grant :=
  fun _ _ h => congrArg AccountMeta.address h

end Place

/-! ## The tables -/

/-- The forms of operations. A claim has two, since the bidder does not sign if an owner sells. -/
inductive Form where
  | init | createAuction | legacyCreateAuction
  | claim (isResell : Bool)
  | legacyClaim | resell | legacyResell | createReverse | endAuction | register | takeBack
  deriving DecidableEq

namespace Form

open Place (reads writes readsSigned writesSigned)

/-- The places that every list of a form has. -/
def mandatory : Form → List Place
  | init => [writes .centralState, reads .systemProgram, reads .feePayer, reads .rentSysvar]
  | createAuction =>
    [reads .rentSysvar, reads .clockSysvar, reads .namingServiceProgram, reads .rootDomain,
     reads .nameAccount, writes .reverseLookup, reads .systemProgram, reads .auctionProgram,
     writes .auction, reads .centralState, writes .state, writesSigned .feePayer,
     reads .quoteMint, reads .priceOracle]
  | legacyCreateAuction =>
    [reads .rentSysvar, reads .clockSysvar, reads .namingServiceProgram, reads .rootDomain,
     reads .nameAccount, reads .systemProgram, reads .auctionProgram, writes .auction,
     writes .state, writesSigned .feePayer, reads .quoteMint]
  | claim isResell =>
    [reads .clockSysvar, reads .tokenProgram, reads .namingServiceProgram, reads .rootDomain,
     writes .nameAccount, reads .systemProgram, reads .auctionProgram, writes .auction,
     reads .centralState, writes .state, reads .resellingState, writesSigned .feePayer,
     reads .quoteMint, writes .destinationToken,
     if isResell then reads .bidderWallet else readsSigned .bidderWallet,
     writes .bidderPot, writes .bidderPotToken, writes .quoteVault, reads .discountAccount,
     writes .buyNow, writes .solVault]
  | legacyClaim =>
    [reads .tokenProgram, reads .clockSysvar, reads .namingServiceProgram, reads .rootDomain,
     writes .nameAccount, reads .systemProgram, reads .auctionProgram, writes .auction,
     reads .centralState, writes .state, writesSigned .feePayer, reads .quoteMint,
     writes .destinationToken, readsSigned .bidderWallet, writes .bidderPot,
     writes .bidderPotToken]
  | resell | legacyResell =>
    [reads .rentSysvar, reads .clockSysvar, reads .namingServiceProgram, reads .rootDomain,
     writes .nameAccount, readsSigned .nameOwner, writes .reverseLookup, reads .systemProgram,
     reads .auctionProgram, writes .auction, reads .centralState, writes .state,
     writes .resellingState, writes .destinationToken, writesSigned .feePayer]
  | createReverse =>
    [reads .rentSysvar, reads .namingServiceProgram, reads .rootDomain, writes .reverseLookup,
     reads .placeholder, reads .centralState, writesSigned .feePayer]
  | endAuction =>
    [reads .clockSysvar, reads .namingServiceProgram, reads .rootDomain, writes .nameAccount,
     reads .auctionProgram, writes .auction, reads .centralState, writes .state,
     writesSigned .auctionCreator, writes .resellingState, writes .destinationToken,
     writes .solVault, reads .systemProgram]
  | register =>
    [reads .rentSysvar, reads .namingServiceProgram, reads .rootDomain, writes .nameAccount,
     writes .reverseLookup, reads .systemProgram, reads .centralState, writesSigned .buyer,
     writes .buyerTokenSource, reads .priceOracle, writes .quoteVault, reads .tokenProgram,
     reads .state]
  | takeBack =>
    [writesSigned .admin, reads .namingServiceProgram, writes .nameAccount, reads .centralState,
     reads .placeholder, reads .rootDomain]

/-- The places behind them, which are there as a whole or not at all. -/
def tail : Form → List Place
  | claim _ => [writes .referrer]
  | resell => [writes .buyNow]
  | createReverse => [writes .parentName, readsSigned .parentNameOwner]
  | _ => []

/-- No form has two places for one role. -/
theorem nodup_roles (form : Form) : ((form.mandatory ++ form.tail).map Place.role).Nodup := by
  cases form with
  | claim isResell => cases isResell <;> decide
  | _ => decide

end Form

/-! ## The accounts of the roles -/

def InitAccounts.account (x : InitAccounts) : Role → Option Address
  | .centralState => x.state
  | .systemProgram => x.systemProgram
  | .feePayer => x.feePayer
  | .rentSysvar => x.rentSysvar
  | _ => none

def CreateAuctionAccounts.account (x : CreateAuctionAccounts) : Role → Option Address
  | .rentSysvar => x.rentSysvar
  | .clockSysvar => x.clockSysvar
  | .namingServiceProgram => x.namingServiceProgram
  | .rootDomain => x.rootDomain
  | .nameAccount => x.nameAccount
  | .reverseLookup => x.reverseLookup
  | .systemProgram => x.systemProgram
  | .auctionProgram => x.auctionProgram
  | .auction => x.auction
  | .centralState => x.centralState
  | .state => x.state
  | .feePayer => x.feePayer
  | .quoteMint => x.quoteMint
  | .priceOracle => x.priceOracle
  | _ => none

def LegacyCreateAuctionAccounts.account (x : LegacyCreateAuctionAccounts) : Role → Option Address
  | .rentSysvar => x.rentSysvar
  | .clockSysvar => x.clockSysvar
  | .namingServiceProgram => x.namingServiceProgram
  | .rootDomain => x.rootDomain
  | .nameAccount => x.nameAccount
  | .systemProgram => x.systemProgram
  | .auctionProgram => x.auctionProgram
  | .auction => x.auction
  | .state => x.state
  | .feePayer => x.feePayer
  | .quoteMint => x.quoteMint
  | _ => none

def ClaimAccounts.account (x : ClaimAccounts) : Role → Option Address
  | .clockSysvar => x.clockSysvar
  | .tokenProgram => x.tokenProgram
  | .namingServiceProgram => x.namingServiceProgram
  | .rootDomain => x.rootDomain
  | .nameAccount => x.nameAccount
  | .systemProgram => x.systemProgram
  | .auctionProgram => x.auctionProgram
  | .auction => x.auction
  | .centralState => x.centralState
  | .state => x.state
  | .resellingState => x.resellingState
  | .feePayer => x.feePayer
  | .quoteMint => x.quoteMint
  | .destinationToken => x.destinationToken
  | .bidderWallet => x.bidderWallet
  | .bidderPot => x.bidderPot
  | .bidderPotToken => x.bidderPotToken
  | .quoteVault => x.quoteVault
  | .discountAccount => x.discountAccount
  | .buyNow => x.buyNow
  | .solVault => x.solVault
  | .referrer => x.referrer
  | _ => none

def LegacyClaimAccounts.account (x : LegacyClaimAccounts) : Role → Option Address
  | .tokenProgram => x.tokenProgram
  | .clockSysvar => x.clockSysvar
  | .namingServiceProgram => x.namingServiceProgram
  | .rootDomain => x.rootDomain
  | .nameAccount => x.nameAccount
  | .systemProgram => x.systemProgram
  | .auctionProgram => x.auctionProgram
  | .auction => x.auction
  | .centralState => x.centralState
  | .state => x.state
  | .feePayer => x.feePayer
  | .quoteMint => x.quoteMint
  | .destinationToken => x.destinationToken
  | .bidderWallet => x.bidderWallet
  | .bidderPot => x.bidderPot
  | .bidderPotToken => x.bidderPotToken
  | _ => none

def ResellAccounts.account (x : ResellAccounts) : Role → Option Address
  | .rentSysvar => x.rentSysvar
  | .clockSysvar => x.clockSysvar
  | .namingServiceProgram => x.namingServiceProgram
  | .rootDomain => x.rootDomain
  | .nameAccount => x.nameAccount
  | .nameOwner => x.nameOwner
  | .reverseLookup => x.reverseLookup
  | .systemProgram => x.systemProgram
  | .auctionProgram => x.auctionProgram
  | .auction => x.auction
  | .centralState => x.centralState
  | .state => x.state
  | .resellingState => x.resellingState
  | .destinationToken => x.destinationToken
  | .feePayer => x.feePayer
  | .buyNow => x.buyNow
  | _ => none

def CreateReverseAccounts.account (x : CreateReverseAccounts) : Role → Option Address
  | .rentSysvar => x.rentSysvar
  | .namingServiceProgram => x.namingServiceProgram
  | .rootDomain => x.rootDomain
  | .reverseLookup => x.reverseLookup
  | .placeholder => some (.zero 32)
  | .centralState => x.centralState
  | .feePayer => x.feePayer
  | .parentName => x.parentName
  | .parentNameOwner => x.parentNameOwner
  | _ => none

def EndAuctionAccounts.account (x : EndAuctionAccounts) : Role → Option Address
  | .clockSysvar => x.clockSysvar
  | .namingServiceProgram => x.namingServiceProgram
  | .rootDomain => x.rootDomain
  | .nameAccount => x.nameAccount
  | .auctionProgram => x.auctionProgram
  | .auction => x.auction
  | .centralState => x.centralState
  | .state => x.state
  | .auctionCreator => x.auctionCreator
  | .resellingState => x.resellingState
  | .destinationToken => x.destinationToken
  | .solVault => x.solVault
  | .systemProgram => x.systemProgram
  | _ => none

def RegisterAccounts.account (x : RegisterAccounts) : Role → Option Address
  | .rentSysvar => x.rentSysvar
  | .namingServiceProgram => x.namingServiceProgram
  | .rootDomain => x.rootDomain
  | .nameAccount => x.nameAccount
  | .reverseLookup => x.reverseLookup
  | .systemProgram => x.systemProgram
  | .centralState => x.centralState
  | .buyer => x.buyer
  | .buyerTokenSource => x.buyerTokenSource
  | .priceOracle => x.priceOracle
  | .quoteVault => x.quoteVault
  | .tokenProgram => x.tokenProgram
  | .state => x.state
  | _ => none

def TakeBackAccounts.account (x : TakeBackAccounts) : Role → Option Address
  | .admin => x.admin
  | .namingServiceProgram => x.namingServiceProgram
  | .nameAccount => x.nameAccount
  | .centralState => x.centralState
  | .placeholder => some (.zero 32)
  | .rootDomain => x.rootDomain
  | _ => none

namespace Operation

def form : Operation → Form
  | init .. => .init
  | createAuction .. => .createAuction
  | legacyCreateAuction .. => .legacyCreateAuction
  | claim x .. => .claim x.isResell
  | legacyClaim .. => .legacyClaim
  | resell .. => .resell
  | legacyResell .. => .legacyResell
  | createReverse .. => .createReverse
  | endAuction .. => .endAuction
  | register .. => .register
  | takeBack .. => .takeBack

/-- The account that an operation gives for a role. -/
def account : Operation → Role → Option Address
  | init x _ => x.account
  | createAuction x _ => x.account
  | legacyCreateAuction x _ => x.account
  | claim x _ _ => x.account
  | legacyClaim x _ _ _ => x.account
  | resell x _ _ _ _ => x.account
  | legacyResell x _ _ => x.account
  | createReverse x _ => x.account
  | endAuction x _ => x.account
  | register x _ _ => x.account
  | takeBack x => x.account

/-- The account in a place, with the rights of the place. -/
def shown (op : Operation) (p : Place) : Option AccountMeta :=
  (op.account p.role).map p.grant

/-- The optional places, if all their accounts are given. -/
def optional (op : Operation) : List Place :=
  if op.form.tail.all fun p => (op.account p.role).isSome then op.form.tail else []

/-- The places of an operation, in the order in which the program reads them. -/
def places (op : Operation) : List Place :=
  op.form.mandatory ++ op.optional

/-- The same operation without its optional accounts. -/
def withoutOptional : Operation → Operation
  | claim x hashedName space => claim { x with referrer := none } hashedName space
  | resell x name minimumPrice endAuctionAt maxPrice =>
    resell { x with buyNow := none } name minimumPrice endAuctionAt maxPrice
  | legacyResell x name minimumPrice => legacyResell { x with buyNow := none } name minimumPrice
  | createReverse x name =>
    createReverse { x with parentName := none, parentNameOwner := none } name
  | op => op

variable {op op' : Operation} {metas : List AccountMeta} {role : Role}

/-! ## The list is read off the table -/

/-- **The list of an operation is the table of its form**, filled with the accounts of the roles. -/
theorem map_some_metas (hv : op.validate = .ok ()) (hm : op.metas = .ok metas) :
    metas.map some = op.places.map op.shown := by
  cases op with
  | claim x hashedName space =>
    obtain rfl := Except.ok.inj hm
    cases x
    rename_i referrer isResell
    cases referrer <;> cases isResell <;> rfl
  | resell x name minimumPrice endAuctionAt maxPrice =>
    obtain rfl := Except.ok.inj hm
    cases x
    rename_i buyNow
    cases buyNow <;> rfl
  | legacyResell x name minimumPrice =>
    obtain rfl := Except.ok.inj hm
    cases x
    rename_i buyNow
    -- the older protocol lets no account pass that the table does not have
    cases buyNow with
    | none => rfl
    | some a => cases hv
  | createReverse x name =>
    cases x
    rename_i parentName parentNameOwner
    cases parentName <;> cases parentNameOwner <;> cases hm <;> rfl
  | _ =>
    obtain rfl := Except.ok.inj hm
    rfl

theorem getElem?_metas (hv : op.validate = .ok ()) (hm : op.metas = .ok metas) (k : Nat) :
    metas[k]?.map some = op.places[k]?.map op.shown := by
  rw [← List.getElem?_map, map_some_metas hv hm, List.getElem?_map]

/-- The account in the place of a role is the one that the operation gives for the role. -/
theorem account_of_place (hv : op.validate = .ok ()) (hm : op.metas = .ok metas) {k : Nat}
    (hk : op.places[k]?.map Place.role = some role) :
    ∃ m, metas[k]? = some m ∧ op.account role = some m.address := by
  obtain ⟨p, hp, rfl⟩ := Option.map_eq_some_iff.1 hk
  have hat := getElem?_metas hv hm k
  rw [hp, Option.map_some] at hat
  obtain ⟨m, hmeta, hshown⟩ := Option.map_eq_some_iff.1 hat
  obtain ⟨a, ha, rfl⟩ := Option.map_eq_some_iff.1 hshown.symm
  exact ⟨_, hmeta, ha⟩

theorem length_metas (hv : op.validate = .ok ()) (hm : op.metas = .ok metas) :
    metas.length = op.places.length := by
  have hlen := congrArg List.length (map_some_metas hv hm)
  simpa only [List.length_map] using hlen

/-- The optional places are there as a whole or not at all. -/
theorem optional_cases (op : Operation) :
    op.optional = op.form.tail ∨ op.optional = [] ∧ ∃ p ∈ op.form.tail, op.account p.role = none := by
  unfold optional
  split
  · exact .inl rfl
  · next h =>
    simp only [List.all_eq_true, not_forall, Bool.not_eq_true, Option.isSome_eq_false_iff,
      Option.isNone_iff_eq_none] at h
    obtain ⟨p, hp, hnone⟩ := h
    exact .inr ⟨rfl, p, hp, hnone⟩

/-- Without its optional accounts, an operation has the mandatory ones, as they were. -/
theorem accounts_withoutOptional (h : op.accounts = .ok metas) :
    ∃ front, op.withoutOptional.accounts = .ok front ∧ front <+: metas
      ∧ front.length = op.form.mandatory.length := by
  obtain ⟨-, hm⟩ := accounts_eq_ok_iff.1 h
  cases op with
  | claim x hashedName space =>
    obtain rfl := Except.ok.inj hm
    exact ⟨_, rfl, List.prefix_append _ _, rfl⟩
  | resell x name minimumPrice endAuctionAt maxPrice =>
    obtain rfl := Except.ok.inj hm
    exact ⟨_, rfl, List.prefix_append _ _, rfl⟩
  | legacyResell x name minimumPrice =>
    obtain rfl := Except.ok.inj hm
    exact ⟨_, rfl, List.prefix_append _ _, rfl⟩
  | createReverse x name =>
    obtain rfl := metas_createReverse hm
    exact ⟨_, rfl, List.prefix_append _ _, rfl⟩
  | _ =>
    obtain rfl := Except.ok.inj hm
    exact ⟨_, h, List.prefix_rfl, rfl⟩

/-- The owner of a parent name makes no difference where there is no parent name. -/
theorem accounts_of_no_parent {x : CreateReverseAccounts} {name : String}
    (h : (createReverse x name).accounts = .ok metas) (hparent : x.parentName = none)
    (owner : Option Address) :
    (createReverse { x with parentNameOwner := owner } name).accounts = .ok metas := by
  cases x
  obtain rfl : _ = none := hparent
  exact h

/-! ## Operations that differ in one account -/

/-- A parent name lacks its owner, in terms of roles. -/
theorem lacksParentOwner_iff : op.LacksParentOwner ↔ op.form = .createReverse
    ∧ (op.account .parentName).isSome = true ∧ (op.account .parentNameOwner).isSome = false := by
  cases op <;> simp [LacksParentOwner, form, account, CreateReverseAccounts.account]

/-- An account too many for the older protocol, in terms of roles. -/
theorem hasLegacyBuyNow_iff : op.HasLegacyBuyNow ↔ op.form = .legacyResell
    ∧ (op.account .buyNow).isSome = true := by
  cases op <;> simp [HasLegacyBuyNow, form, account, ResellAccounts.account]

/-- Two operations of one form that give an account for the same roles. -/
structure Alike (op op' : Operation) : Prop where
  form : op'.form = op.form
  given : ∀ role, (op'.account role).isSome = (op.account role).isSome

namespace Alike

variable (h : Alike op op')

include h

theorem places : op'.places = op.places := by
  simp only [Operation.places, optional, h.form, h.given]

/-- What is valid depends on which accounts are given, and not on what they are. -/
theorem validate (hv : op.validate = .ok ()) : op'.validate = .ok () := by
  rw [validate_eq_ok_iff, lacksParentOwner_iff, hasLegacyBuyNow_iff] at hv ⊢
  rwa [h.form, h.given, h.given, h.given]

end Alike

/-- Two operations of one form that give different accounts for one role, and otherwise the same. -/
structure DiffersIn (op op' : Operation) (role : Role) : Prop extends Alike op op' where
  differs : op'.account role ≠ op.account role
  others : ∀ r, r ≠ role → op'.account r = op.account r

namespace DiffersIn

variable (h : DiffersIn op op' role)

include h

theorem shown_eq_iff {p : Place} : op'.shown p = op.shown p ↔ p.role ≠ role := by
  constructor
  · rintro hsame rfl
    exact h.differs (Option.map_injective p.grant_injective hsame)
  · intro hne
    rw [shown, shown, h.others _ hne]

/-- **The lists differ in the place of the role**, and nowhere else. -/
theorem accounts (ha : op.accounts = .ok metas) :
    ∃ metas', op'.accounts = .ok metas' ∧ metas'.length = metas.length
      ∧ ∀ k : Nat, metas'[k]? ≠ metas[k]? ↔ op.places[k]?.map Place.role = some role := by
  obtain ⟨hv, hm⟩ := accounts_eq_ok_iff.1 ha
  have hv' := h.validate hv
  obtain ⟨metas', hm'⟩ := metas_of_validate hv'
  refine ⟨metas', accounts_eq_ok_iff.2 ⟨hv', hm'⟩, ?_, fun k => ?_⟩
  · rw [length_metas hv' hm', length_metas hv hm, h.places]
  · have hk := getElem?_metas hv hm k
    have hk' := getElem?_metas hv' hm' k
    rw [h.places] at hk'
    rw [Ne, ← (Option.map_injective (Option.some_injective _)).eq_iff, hk, hk']
    cases op.places[k]? with
    | none => simp
    | some p => simp [h.shown_eq_iff]

end DiffersIn

/-! ## The lists of accounts -/

/-- What the places in the list of an operation mean. -/
structure Positional (op : Operation) (metas : List AccountMeta) : Prop where
  /-- The mandatory accounts come first and the optional ones behind them, each in the place of its
  role and with the rights of that place. -/
  placed : metas.map some = (op.form.mandatory ++ op.optional).map op.shown
  whole : op.optional = op.form.tail ∨ op.optional = [] ∧ ∃ p ∈ op.form.tail, op.account p.role = none
  once : ((op.form.mandatory ++ op.form.tail).map Place.role).Nodup
  /-- Without the optional accounts, what is left is the front of the list. -/
  cleared : ∃ front, op.withoutOptional.accounts = .ok front ∧ front <+: metas
    ∧ front.length = op.form.mandatory.length
  /-- Without a parent name, it does not matter who owns it. -/
  unparented : ∀ x name, op = createReverse x name → x.parentName = none → ∀ owner,
    (createReverse { x with parentNameOwner := owner } name).accounts = .ok metas
  /-- Another account for one role makes a difference in the place of that role only. -/
  differs : ∀ op' role, op.DiffersIn op' role → ∃ metas', op'.accounts = .ok metas'
    ∧ metas'.length = metas.length
    ∧ ∀ k : Nat, metas'[k]? ≠ metas[k]? ↔ op.places[k]?.map Place.role = some role

/-- **Accounts are read by position**: every list that an operation has is positional. -/
theorem accounts_positional (h : op.accounts = .ok metas) : op.Positional metas where
  placed := by
    obtain ⟨hv, hm⟩ := accounts_eq_ok_iff.1 h
    exact map_some_metas hv hm
  whole := op.optional_cases
  once := op.form.nodup_roles
  cleared := accounts_withoutOptional h
  unparented x name hop hparent owner := by
    subst hop
    exact accounts_of_no_parent h hparent owner
  differs _ _ hdiffers := hdiffers.accounts h

/-- The creation of a reverse lookup for a name under a parent that belongs to `owner`. -/
def lookupUnder (owner : Nat) : Operation :=
  createReverse ⟨.ofNat 32 1, .ofNat 32 2, .ofNat 32 3, .ofNat 32 4, .ofNat 32 5, .ofNat 32 6,
    some (.ofNat 32 7), some (.ofNat 32 owner)⟩ "sol"

theorem lookupUnder_differsIn : (lookupUnder 8).DiffersIn (lookupUnder 9) .parentNameOwner where
  form := rfl
  given role := by cases role <;> rfl
  differs := by decide
  others r hne := by
    cases r with
    | parentNameOwner => exact absurd rfl hne
    | _ => rfl

/-- Another owner of the parent changes the ninth account, and not the parent before it. -/
theorem accounts_positional_lookupUnder :
    ∃ metas metas', (lookupUnder 8).accounts = .ok metas ∧ (lookupUnder 9).accounts = .ok metas'
      ∧ metas'[8]? ≠ metas[8]? ∧ metas'[7]? = metas[7]? := by
  have hlist : (lookupUnder 8).accounts = .ok _ := rfl
  obtain ⟨metas', hlist', -, hat⟩ :=
    (accounts_positional hlist).differs _ _ lookupUnder_differsIn
  refine ⟨_, metas', hlist, hlist', (hat 8).2 rfl, ?_⟩
  by_contra hne
  exact absurd ((hat 7).1 hne) (by decide)

end Operation

end DomainAuction
