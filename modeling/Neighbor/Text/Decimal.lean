/-!
# Decimal numbers

A number is written with the fewest digits, at least one.
-/

namespace Neighbor.Text

/-- The decimal digits of a number. -/
def decimal (n : Nat) : List Char := Nat.toDigits 10 n

/-- The written form of a number. -/
def decimalText (n : Nat) : String := String.ofList (decimal n)

end Neighbor.Text
