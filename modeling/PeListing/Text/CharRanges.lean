/-!
# Classes of characters

A class of characters is a list of closed ranges of code points, in ascending order and apart. The
blanks are the characters of the Unicode property White_Space.
-/

namespace PeListing.Text

/-- Closed ranges of code points. -/
abbrev CharRanges : Type := List (Nat × Nat)

/-- Whether a character falls in one of the ranges. -/
def CharRanges.contains (rs : CharRanges) (c : Char) : Bool :=
  rs.any fun (low, high) => low ≤ c.toNat && c.toNat ≤ high

/-- The characters of the property White_Space. -/
def blankRanges : CharRanges :=
  [(0x9, 0xD), (0x20, 0x20), (0x85, 0x85), (0xA0, 0xA0), (0x1680, 0x1680), (0x2000, 0x200A),
   (0x2028, 0x2029), (0x202F, 0x202F), (0x205F, 0x205F), (0x3000, 0x3000)]

/-- Whether a character is blank. -/
def isBlank (c : Char) : Bool := blankRanges.contains c

/-- A text without the blanks at both its ends. -/
def trim (cs : List Char) : List Char :=
  ((cs.dropWhile isBlank).reverse.dropWhile isBlank).reverse

end PeListing.Text
