import DomainAuction.Derivation.ProgramAddress

/-!
# DerivedAccount — where the records of a name are kept

Each record has an address derived from what it belongs to: a name account from the hash of the
name, its class and its parent, the state of a sale from the name account, the pot of a bidder
from the auction.
-/

namespace DomainAuction

/-- A record that lives at a derived address. -/
inductive DerivedAccount where
  | name (program : Address) (hashedName : Digest) (nameClass parent : Option Address)
  | centralState (program : Address)
  | auctionState (program nameAccount : Address)
  | resellingState (program nameAccount : Address)
  | auction (auctionProgram nameAccount : Address)
  | bidderPot (auctionProgram auctionAccount bidder : Address)

namespace DerivedAccount

/-- The seeds and the program. An absent class or parent counts as the zero address. -/
def derivation : DerivedAccount → Derivation
  | name program hashedName nameClass parent =>
    ⟨[hashedName.toList, (nameClass.getD (.zero 32)).toList, (parent.getD (.zero 32)).toList],
     program⟩
  | centralState program => ⟨[program.toList], program⟩
  | auctionState program nameAccount => ⟨[nameAccount.toList], program⟩
  | resellingState program nameAccount => ⟨[nameAccount.toList, [1, 1]], program⟩
  | auction program nameAccount =>
    ⟨[utf8 "auction", program.toList, nameAccount.toList], program⟩
  | bidderPot program account bidder =>
    ⟨[utf8 "auction", program.toList, account.toList, bidder.toList], program⟩

/-- The address of a record and its bump. -/
def find (x : DerivedAccount) : Address × UInt8 :=
  x.derivation.find

/-- The address of a record. -/
def address (x : DerivedAccount) : Address :=
  x.find.1

end DerivedAccount

/-- The hash under which the naming service files a name. -/
def hashName (name : String) : Digest :=
  sha256 (utf8 ("SPL Name Service" ++ name))

end DomainAuction
