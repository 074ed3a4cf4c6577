import DomainAuction.Packing.Layout

/-!
# Name — the records of the naming service

Every name account starts with a header that says who owns the name. A reverse lookup account
holds the text of another account's name behind such a header.
-/

namespace DomainAuction

/-- The parent, the owner and the class of a name. -/
structure NameHeader where
  parentName : Address
  owner : Address
  nameClass : Address
  deriving DecidableEq

namespace NameHeader

/-- The bytes of a header. -/
def size : Nat := 96

def layout : Layout NameHeader :=
  .sized size <| .iso (.both .address (.both .address .address))
    (fun (parentName, owner, nameClass) => ⟨parentName, owner, nameClass⟩)
    (fun h => (h.parentName, h.owner, h.nameClass))

end NameHeader

/-- The text of a name, stored under the address of its account. -/
structure ReverseLookup where
  header : NameHeader
  name : String
  deriving DecidableEq

def ReverseLookup.layout : Layout ReverseLookup :=
  .iso (.both NameHeader.layout .text)
    (fun (header, name) => ⟨header, name⟩)
    (fun r => (r.header, r.name))

end DomainAuction
