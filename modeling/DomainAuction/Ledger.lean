import DomainAuction.Node.Basic

/-!
# Ledger — a ledger held in memory

A ledger that is small enough to look at: accounts ordered by address, and the transactions that
were listed under each address. It is a node, and can be told to answer less than it knows, so that
whatever asks it can be tried against a node that fails.
-/

namespace DomainAuction

/-- The data of an account and the program that may change them. -/
structure Account where
  address : Address
  owner : Address
  data : Bytes
  deriving DecidableEq

namespace Account

/-- Whether a list has one account for each address, in the order of the addresses. -/
abbrev Ordered (accounts : List Account) : Prop :=
  accounts.Pairwise fun a b => a.address.toNat < b.address.toNat

/-- Adds an account to an ordered list, in place of the one at its address. -/
def insert (x : Account) : List Account → List Account
  | [] => [x]
  | a :: rest =>
    if x.address = a.address then x :: rest
    else if x.address.precedes a.address then x :: a :: rest
    else a :: insert x rest

theorem mem_insert {x a : Account} {accounts : List Account} (h : a ∈ insert x accounts) :
    a = x ∨ a ∈ accounts := by
  induction accounts with
  | nil => simpa [insert] using h
  | cons b rest ih =>
    unfold insert at h
    split at h
    · rcases List.mem_cons.1 h with h | h
      · exact .inl h
      · exact .inr (List.mem_cons_of_mem _ h)
    · split at h
      · exact List.mem_cons.1 h
      · rcases List.mem_cons.1 h with h | h
        · exact .inr (h ▸ List.mem_cons_self)
        · exact (ih h).imp_right (List.mem_cons_of_mem _)

theorem ordered_insert (x : Account) {accounts : List Account} (h : Ordered accounts) :
    Ordered (insert x accounts) := by
  induction accounts with
  | nil => exact List.pairwise_singleton _ _
  | cons b rest ih =>
    obtain ⟨hb, hrest⟩ := List.pairwise_cons.1 h
    unfold insert
    split
    · next heq => exact List.pairwise_cons.2 ⟨fun a ha => heq ▸ hb a ha, hrest⟩
    · next hne =>
      split
      · next hlt =>
        have hlt : x.address.toNat < b.address.toNat := of_decide_eq_true hlt
        refine List.pairwise_cons.2 ⟨fun a ha => ?_, h⟩
        rcases List.mem_cons.1 ha with rfl | ha
        · exact hlt
        · exact Nat.lt_trans hlt (hb a ha)
      · next hge =>
        have hge : ¬ x.address.toNat < b.address.toNat := fun h => hge (decide_eq_true h)
        have hne : x.address.toNat ≠ b.address.toNat := fun h => hne (Octets.toNat_inj h)
        refine List.pairwise_cons.2 ⟨fun a ha => ?_, ih hrest⟩
        rcases mem_insert ha with rfl | ha
        · omega
        · exact hb a ha

end Account

/-- Accounts and past transactions, and what the ledger keeps to itself. -/
structure Ledger where
  accounts : List Account
  /-- The addresses under which signatures are listed, oldest first. -/
  listings : List (Address × Signature)
  transactions : List (Signature × PastTransaction)
  /-- Signatures whose transactions cannot be fetched. -/
  unreachable : List Signature
  rentPerByte : Option UInt64
  /-- The names of the methods that fail. -/
  unavailable : List String
  /-- How many accounts are missing at the end of every answer about several. -/
  withheld : Nat
  ordered : Account.Ordered accounts

namespace Ledger

/-- A ledger without any accounts or transactions. -/
def empty (rentPerByte : Option UInt64) (unavailable : List String) (withheld : Nat) : Ledger :=
  { accounts := [], listings := [], transactions := [], unreachable := [], rentPerByte,
    unavailable, withheld, ordered := .nil }

/-! ## Changes -/

/-- The ledger with an account, in place of the one at its address. -/
def insert (l : Ledger) (x : Account) : Ledger :=
  { l with accounts := x.insert l.accounts, ordered := Account.ordered_insert x l.ordered }

/-- The ledger without the account at an address. -/
def erase (l : Ledger) (address : Address) : Ledger :=
  { l with
    accounts := l.accounts.filter (·.address != address)
    ordered := l.ordered.filter _ }

/-- The ledger with a signature listed under some addresses, newer than all others. -/
def list (l : Ledger) (signature : Signature) (addresses : List Address) : Ledger :=
  { l with listings := l.listings ++ addresses.map fun a => (a, signature) }

/-- The ledger with a transaction, in place of the one with its signature. -/
def record (l : Ledger) (signature : Signature) (t : PastTransaction) : Ledger :=
  { l with transactions := (signature, t) :: l.transactions.filter (·.1 != signature) }

/-- The ledger with a transaction out of reach. -/
def lose (l : Ledger) (signature : Signature) : Ledger :=
  { l with unreachable := signature :: l.unreachable.filter (· != signature) }

/-! ## Views -/

/-- The data of the account at an address. -/
def data? (l : Ledger) (address : Address) : Option Bytes :=
  (l.accounts.find? (·.address == address)).map Account.data

/-- The accounts of a program whose data show all windows, in the order of their addresses. -/
def ownedBy (l : Ledger) (program : Address) (windows : List Window) : List (Address × Bytes) :=
  (l.accounts.filter fun a => a.owner == program && Window.allShow windows a.data).map
    fun a => (a.address, a.data)

/-- The signatures listed under an address, newest first. -/
def signaturesOf (l : Ledger) (address : Address) : List Signature :=
  ((l.listings.filter (·.1 == address)).map Prod.snd).reverse

/-- The signatures about whose transactions the ledger knows anything. -/
def knownSignatures (l : Ledger) : List Signature :=
  l.transactions.map Prod.fst
    ++ l.unreachable.filter fun s => !(l.transactions.map Prod.fst).contains s

/-! ## The ledger as a node -/

/-- Why a ledger does not answer. -/
inductive Outage where
  | unavailable (method : String)
  | unreachable (signature : Signature)
  | rentUnknown
  deriving DecidableEq

def Outage.message : Outage → String
  | unavailable method => "Ledger unavailable: " ++ method
  | unreachable signature => "Connection refused while fetching " ++ signature.toBase58
  | rentUnknown => "Rent unavailable"

end Ledger

/-- The name of the method that serves a request. -/
def Request.method : Request → String
  | account .. => "get_account_data"
  | accounts .. => "get_multiple_accounts_data"
  | programAccounts .. => "get_program_accounts"
  | signatures .. => "get_signatures_for_address"
  | transaction .. => "get_transaction"
  | rentMinimum .. => "get_minimum_balance_for_rent_exemption"

namespace Ledger

/-- The answer to a request whose method is available. -/
def answer (l : Ledger) : (q : Request) → Except Outage q.Answer
  | .account address _ => .ok (l.data? address)
  | .accounts addresses =>
    let data := addresses.map l.data?
    .ok (data.take (data.length - l.withheld))
  | .programAccounts program windows => .ok (l.ownedBy program windows)
  | .signatures address limit => .ok ((l.signaturesOf address).take limit)
  | .transaction signature =>
    if l.unreachable.contains signature then .error (.unreachable signature)
    else .ok (l.transactions.lookup signature)
  | .rentMinimum size =>
    match l.rentPerByte with
    | some rate => .ok (.ofNat ((size + 128) * rate.toNat))
    | none => .error .rentUnknown

/-- The node that answers from the ledger and never changes it. -/
def node : Node Ledger Outage where
  answer q := fun l =>
    if l.unavailable.contains q.method then .error (.unavailable q.method) l
    else match l.answer q with
      | .ok a => .ok a l
      | .error outage => .error outage l

end Ledger

end DomainAuction
