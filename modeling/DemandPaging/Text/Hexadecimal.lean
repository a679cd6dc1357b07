import DemandPaging.Text.Align

/-!
# Hexadecimal numbers

The written forms of numbers in base sixteen: the shortest form with small
letters, and forms of a fixed width.
-/

namespace DemandPaging.Text

/-- The digits of `n` in base sixteen with small letters, without leading zeros. -/
def hexDigits (n : Nat) : String := String.ofList (Nat.toDigits 16 n)

/-- The shortest form, marked by `0x`. -/
def hex (n : Nat) : String := "0x" ++ hexDigits n

/-- At least `width` digits with small letters, without a mark. -/
def hexOfWidth (width n : Nat) : String := alignRight width '0' (hexDigits n)

/-- Sixteen digits with capital letters, marked by `0x`: a whole machine word. -/
def hexWord (n : Nat) : String :=
  "0x" ++ alignRight 16 '0' (String.ofList ((Nat.toDigits 16 n).map Char.toUpper))

end DemandPaging.Text
