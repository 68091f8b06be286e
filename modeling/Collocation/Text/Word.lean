import Collocation.Text.WordTable

/-!
Word characters: letters, numerals and the underscore, in every script.
-/

namespace Collocation.Text

def inRanges (ranges : List (Nat × Nat)) (n : Nat) : Bool :=
  ranges.any fun r => r.1 ≤ n && n ≤ r.2

/-- A letter, digit or underscore of the first 128 characters. -/
def isPlainWord (c : Char) : Bool := c.isAlphanum || c == '_'

/-- A letter or numeral of any script, or the underscore. -/
def isWord (c : Char) : Bool :=
  if c.toNat < 128 then isPlainWord c else inRanges wordRanges c.toNat

end Collocation.Text
