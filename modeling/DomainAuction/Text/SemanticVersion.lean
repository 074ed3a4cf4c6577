import DomainAuction.Text.Numeral
import DomainAuction.Text.Pieces

/-!
# SemanticVersion — how releases are numbered

A version is three numerals with dots between them. Behind a hyphen may follow what comes before a
release, and behind a plus sign what tells its builds apart: labels with dots between them, made of
letters, digits and hyphens. Labels of a pre-release that are all digits are numerals.
-/

namespace DomainAuction.SemanticVersion

/-- Whether a text is one of the three numbers, which are kept in 64 bits. -/
def isNumber (cs : List Char) : Bool :=
  match Numeral.decode? cs with
  | some n => n < 18446744073709551616
  | none => false

def isLabel (cs : List Char) : Bool :=
  !cs.isEmpty && cs.all fun c => c.isAlphanum || c == '-'

/-- A label of a pre-release: of digits alone, it has no leading zeros. -/
def isPreReleaseLabel (cs : List Char) : Bool :=
  isLabel cs && (!cs.all Char.isDigit || (Numeral.decode? cs).isSome)

/-- Whether a text is a version. -/
def isValid (text : String) : Bool :=
  let (front, build) := cutAtFirst '+' text.toList
  let (release, preRelease) := cutAtFirst '-' front
  (match pieces '.' release with
    | [major, minor, patch] => isNumber major && isNumber minor && isNumber patch
    | _ => false)
  && preRelease.all (fun labels => (pieces '.' labels).all isPreReleaseLabel)
  && build.all (fun labels => (pieces '.' labels).all isLabel)

end DomainAuction.SemanticVersion
