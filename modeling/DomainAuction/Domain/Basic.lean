import DomainAuction.Deployment

/-!
# Domain — a name and the accounts that belong to it

A domain is a name under a parent in one deployment. The addresses of its records follow from
these three, and are the same for everyone who asks.
-/

namespace DomainAuction

/-- The reverse lookup of a name account: the name record of its written address, in the class of
the central state. -/
def Deployment.reverseLookup (d : Deployment) (nameAccount : Address) : Address :=
  (DerivedAccount.name d.namingServiceProgram (hashName nameAccount.toBase58)
    (some d.centralState) none).address

/-- A name under a parent. -/
structure Domain where
  deployment : Deployment
  name : String
  parent : Address

namespace Domain

/-- A name directly under the root domain of a deployment. -/
def underRoot (d : Deployment) (name : String) : Domain :=
  ⟨d, name, d.rootDomain⟩

def hashedName (x : Domain) : Digest :=
  hashName x.name

/-- The record of the naming service that says who owns the name. -/
def nameAccount (x : Domain) : Address :=
  (DerivedAccount.name x.deployment.namingServiceProgram x.hashedName none (some x.parent)).address

/-- The account that holds the text of the name. -/
def reverseLookup (x : Domain) : Address :=
  x.deployment.reverseLookup x.nameAccount

/-- The state of the sale of the name. -/
def state (x : Domain) : Address :=
  (DerivedAccount.auctionState x.deployment.programId x.nameAccount).address

/-- The record of a resale of the name. -/
def resellingState (x : Domain) : Address :=
  (DerivedAccount.resellingState x.deployment.programId x.nameAccount).address

/-- The account through which the name is auctioned, where the deployment derives it. -/
def auction (x : Domain) : Address :=
  (DerivedAccount.auction x.deployment.auctionProgram x.nameAccount).address

/-- The parent, unless it is the root domain. -/
def parentName? (x : Domain) : Option Address :=
  if x.parent = x.deployment.rootDomain then none else some x.parent

end Domain

/-- The name account of a name directly under the root domain. -/
def Deployment.domainAccount (d : Deployment) (name : String) : Address :=
  (DerivedAccount.name d.namingServiceProgram (hashName name) none (some d.rootDomain)).address

end DomainAuction
