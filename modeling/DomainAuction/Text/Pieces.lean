/-!
# Pieces — a text cut at a mark

Cutting at every mark leaves one piece more than there are marks; cutting at the first mark leaves
what is before it and, if there is a mark, what is behind it. Pieces may be empty.
-/

namespace DomainAuction

/-- The parts of a text between its marks. -/
def pieces (mark : Char) : List Char → List (List Char)
  | [] => [[]]
  | c :: rest =>
    if c = mark then [] :: pieces mark rest
    else
      match pieces mark rest with
      | [] => [[c]]
      | piece :: others => (c :: piece) :: others

/-- The parts of a text before and behind its first mark. -/
def cutAtFirst (mark : Char) : List Char → List Char × Option (List Char)
  | [] => ([], none)
  | c :: rest =>
    if c = mark then ([], some rest)
    else
      let (before, behind) := cutAtFirst mark rest
      (c :: before, behind)

end DomainAuction
