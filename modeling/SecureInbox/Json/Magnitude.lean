import SecureInbox.Text.Numeral

/-!
# The magnitude of a JSON number

A number that is no integer of 64 bits is held in double precision. It is put
together in two steps: the digits make a *significand* of 64 bits, and that is
multiplied by a power of ten. Digits beyond 64 bits are dropped, and the
significand, the power and their product are each rounded to 53 bits. So the
largest number that can be held is not quite the one that exact rounding would
allow.

* `isInRange`: the product is finite.
-/

namespace SecureInbox.Json

/-- The nearest number that has 53 significant bits; of two that are equally
    near, the even one. -/
def round53 (n : Nat) : Nat :=
  let unit := Nat.pow 2 (n.log2 - 52)
  let q := n / unit
  let r := n % unit
  if unit < 2 * r ∨ (2 * r = unit ∧ q % 2 = 1) then (q + 1) * unit else q * unit

/-- Appends digits to a significand for as long as it stays below 2 ^ 64, and
    gives the digits that are left. -/
def appendDigits (significand : Nat) : List Char → Nat × List Char
  | [] => (significand, [])
  | c :: rest =>
    let next := 10 * significand + (c.toNat - 48)
    if next < 18446744073709551616 then appendDigits next rest else (significand, c :: rest)

/-- The significand of a numeral and its power of ten. A whole digit that is
    dropped raises the power, a digit of the fraction that is kept lowers it. -/
def scaled (n : Text.Numeral) : Nat × Int :=
  let (whole, dropped) := appendDigits 0 n.whole
  let fraction := n.fraction.getD []
  let (significand, left) := appendDigits whole fraction
  (significand,
    n.exponent.getD 0 + Int.ofNat dropped.length - Int.ofNat (fraction.length - left.length))

/-- The number can be held in double precision. -/
def isInRange (n : Text.Numeral) : Bool :=
  let (significand, power) := scaled n
  if significand = 0 ∨ power ≤ 0 then true
  else if 308 < power then false
  else round53 significand * round53 (Nat.pow 10 power.toNat) < Text.Numeral.overflow

end SecureInbox.Json
