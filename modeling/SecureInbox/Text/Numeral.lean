/-!
# Decimal numerals

The parts of a number as people write it, and the question whether a number of
double precision can hold it.
-/

namespace SecureInbox.Text

/-- The number that decimal digits stand for. -/
def decimal (digits : List Char) : Nat :=
  digits.foldl (fun n c => 10 * n + (c.toNat - 48)) 0

/-- The value of a hexadecimal digit in either case. -/
def hexValue? (c : Char) : Option Nat :=
  let n := c.toNat
  if 48 ≤ n ∧ n ≤ 57 then some (n - 48)
  else if 97 ≤ n ∧ n ≤ 102 then some (n - 87)
  else if 65 ≤ n ∧ n ≤ 70 then some (n - 55)
  else none

/-- The number that hexadecimal digits stand for. -/
def hexadecimal? (digits : List Char) : Option Nat :=
  digits.foldlM (fun n c => (hexValue? c).map (16 * n + ·)) 0

/-- The parts of a number as it is written. -/
structure Numeral where
  negative : Bool
  /-- The digits before the point. -/
  whole : List Char
  /-- The digits after the point, if there is one. -/
  fraction : Option (List Char)
  /-- The exponent, if there is one. -/
  exponent : Option Int
  deriving DecidableEq, Repr

namespace Numeral

/-- The least magnitude that rounds to no finite number of double precision. -/
def overflow : Nat := Nat.pow 2 1024 - Nat.pow 2 970

/-- The magnitude is below `overflow`. Numbers with far too many or far too few
    whole digits are settled by counting, without their value. -/
def isFinite (n : Numeral) : Bool :=
  let fraction := n.fraction.getD []
  let significand := decimal (n.whole ++ fraction)
  let shift := n.exponent.getD 0 - fraction.length
  let size := shift + ((n.whole ++ fraction).dropWhile (· == '0')).length
  if significand = 0 ∨ size < 300 then true
  else if 400 < size then false
  else if 0 ≤ shift then significand * Nat.pow 10 shift.toNat < overflow
  else significand < overflow * Nat.pow 10 (-shift).toNat

end Numeral

end SecureInbox.Text
