import SecureInbox.Text.Blank
import SecureInbox.Text.Octets

/-!
# Hexadecimal text

Two digits a byte, the high half first. Writing uses lower-case digits, reading
takes either case. The offset in an error counts octets.
-/

namespace SecureInbox.Hex

/-- The lower-case digit of a number below sixteen. -/
def digit (n : Nat) : Char := if n < 10 then Char.ofNat (48 + n) else Char.ofNat (87 + n)

/-- The two digits of every byte. -/
def encode (bytes : Bytes) : List Char :=
  bytes.flatMap fun b => [digit (b.toNat / 16), digit (b.toNat % 16)]

/-- The bytes as a string of digits. -/
def text (bytes : Bytes) : String := String.ofList (encode bytes)

/-- Why a text is not a string of digits. -/
inductive Error
  | oddLength
  | invalidDigit (octet : UInt8) (offset : Nat)
  deriving DecidableEq, Repr

/-- The value of a digit in either case. -/
def value? (b : UInt8) : Option Nat :=
  let n := b.toNat
  if 48 ≤ n ∧ n ≤ 57 then some (n - 48)
  else if 97 ≤ n ∧ n ≤ 102 then some (n - 87)
  else if 65 ≤ n ∧ n ≤ 70 then some (n - 55)
  else none

/-- The digit at an offset. -/
def digitAt (offset : Nat) (b : UInt8) : Except Error Nat :=
  match value? b with
  | some n => .ok n
  | none => .error (.invalidDigit b offset)

/-- The bytes of pairs of digits, the first of them at an offset. -/
def decodePairs (offset : Nat) : Bytes → Except Error Bytes
  | [] => .ok []
  | [_] => .error .oddLength
  | a :: b :: rest => do
    let high ← digitAt offset a
    let low ← digitAt (offset + 1) b
    return UInt8.ofNat (high * 16 + low) :: (← decodePairs (offset + 2) rest)

/-- The bytes a text of digits stands for. An odd number of octets is refused
    before any digit is looked at. -/
def decode (text : List Char) : Except Error Bytes :=
  let octets := Text.octets text
  if octets.length % 2 = 1 then .error .oddLength else decodePairs 0 octets

/-- The Latin-1 character of an octet between quotes, with an escape for the
    quote, the backslash and what cannot be printed. -/
def quoted (b : UInt8) : String :=
  let c := Char.ofNat b.toNat
  let body :=
    if c = '\t' then "\\t" else if c = '\n' then "\\n" else if c = '\r' then "\\r"
    else if b = 39 then "\\'" else if c = '\\' then "\\\\" else if b = 0 then "\\0"
    else if b.toNat < 32 ∨ (127 ≤ b.toNat ∧ b.toNat ≤ 160) ∨ b.toNat = 173 then
      "\\u\x7b" ++ String.ofList (Nat.toDigits 16 b.toNat) ++ "\x7d"
    else c.toString
  "'" ++ body ++ "'"

/-- The wording of an error. -/
def Error.message : Error → String
  | .oddLength => "Odd number of digits"
  | .invalidDigit b offset => "Invalid character " ++ quoted b ++ " at position " ++ toString offset

end SecureInbox.Hex
