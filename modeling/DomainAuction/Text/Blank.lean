/-!
# Blank — white space around a text

A character is blank if it has the property White_Space: the six ASCII blanks, next line,
no-break space, the spaces of general punctuation, and a few more. Trimming takes blanks off both
ends and leaves the inside alone.
-/

namespace DomainAuction

/-- Whether a character has the property White_Space. -/
def isBlank (c : Char) : Bool :=
  let n := c.toNat
  (9 ≤ n && n ≤ 13) || n == 0x20 || n == 0x85 || n == 0xA0 || n == 0x1680
    || (0x2000 ≤ n && n ≤ 0x200A) || n == 0x2028 || n == 0x2029 || n == 0x202F || n == 0x205F
    || n == 0x3000

/-- A text without the blanks at its ends, as characters. -/
def trimBlank (text : String) : List Char :=
  ((text.toList.dropWhile isBlank).reverse.dropWhile isBlank).reverse

end DomainAuction
