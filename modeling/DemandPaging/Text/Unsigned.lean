/-!
# Unsigned numbers

Reading a decimal number: digits, after at most one plus sign, whose value is
below a given bound.
-/

namespace DemandPaging.Text

/-- The value of a list of decimal digits that follows the digits of `acc`. -/
def digitsValue? (acc : Nat) : List Char → Option Nat
  | [] => some acc
  | c :: cs => if c.isDigit then digitsValue? (10 * acc + (c.toNat - '0'.toNat)) cs else none

/-- The value of a nonempty list of decimal digits. -/
def unsignedDigits? : List Char → Option Nat
  | [] => none
  | cs => digitsValue? 0 cs

/-- Read an unsigned number below `bound`. -/
def unsigned? (bound : Nat) (s : String) : Option Nat :=
  let digits := match s.toList with
    | '+' :: cs => cs
    | cs => cs
  (unsignedDigits? digits).filter (· < bound)

end DemandPaging.Text
