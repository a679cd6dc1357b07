/-!
# Blanks

The characters that count as white space, and text without them at its ends.
-/

namespace DemandPaging.Text

/-- Characters with the Unicode property `White_Space`. -/
def isBlank (c : Char) : Bool :=
  (0x09 ≤ c.toNat && c.toNat ≤ 0x0D) || c.toNat == 0x20 || c.toNat == 0x85 || c.toNat == 0xA0 ||
    c.toNat == 0x1680 || (0x2000 ≤ c.toNat && c.toNat ≤ 0x200A) || c.toNat == 0x2028 ||
    c.toNat == 0x2029 || c.toNat == 0x202F || c.toNat == 0x205F || c.toNat == 0x3000

/-- `cs` without the blanks at its ends. -/
def trimBlanks (cs : List Char) : List Char :=
  ((cs.dropWhile isBlank).reverse.dropWhile isBlank).reverse

/-- Capital and small ASCII letters made the same; other characters are kept. -/
def foldCase (cs : List Char) : List Char := cs.map Char.toLower

/-- `s`, without blanks at its ends, spells `word` when the case of ASCII letters is ignored. -/
def spells (s word : String) : Bool := foldCase (trimBlanks s.toList) == foldCase word.toList

end DemandPaging.Text
