import SecureInbox.Text.Octets

/-!
# Base64

The standard alphabet, written without padding. Three bytes make four symbols;
one byte left over makes two symbols and two bytes make three, whose unused low
bits are zero.

A text is read octet by octet in groups of four. The *last group*, the final
one to four octets, may stop early, and may then be filled up with the padding
sign; padding anywhere else, a foreign octet, a lone symbol and unused bits
that are not zero are refused, each with the place where it stands. How many
padding signs follow makes no difference as long as they complete no second
group.
-/

namespace SecureInbox.Base64

/-- The symbol of a number below 64. -/
def symbol (n : Nat) : Char :=
  if n < 26 then Char.ofNat (65 + n)
  else if n < 52 then Char.ofNat (71 + n)
  else if n < 62 then Char.ofNat (n - 4)
  else if n = 62 then '+' else '/'

/-- The number a symbol stands for; the padding sign is no symbol. -/
def value? (b : UInt8) : Option Nat :=
  let n := b.toNat
  if 65 ≤ n ∧ n ≤ 90 then some (n - 65)
  else if 97 ≤ n ∧ n ≤ 122 then some (n - 71)
  else if 48 ≤ n ∧ n ≤ 57 then some (n + 4)
  else if n = 43 then some 62
  else if n = 47 then some 63
  else none

/-- The padding sign. -/
def pad : UInt8 := 61

/-- The symbols of a byte string, without padding. -/
def encode : Bytes → List Char
  | [] => []
  | [a] => [symbol (a.toNat / 4), symbol (a.toNat % 4 * 16)]
  | [a, b] =>
    [symbol (a.toNat / 4), symbol (a.toNat % 4 * 16 + b.toNat / 16), symbol (b.toNat % 16 * 4)]
  | a :: b :: c :: rest =>
    symbol (a.toNat / 4) :: symbol (a.toNat % 4 * 16 + b.toNat / 16) ::
      symbol (b.toNat % 16 * 4 + c.toNat / 64) :: symbol (c.toNat % 64) :: encode rest

/-- Why a text does not decode. -/
inductive Error
  /-- An octet that is no symbol, or padding where none may stand. -/
  | invalidByte (octet : UInt8) (offset : Nat)
  /-- The last group holds one symbol only. -/
  | invalidLength (length : Nat)
  /-- The last symbol has bits that belong to no byte. -/
  | invalidLastSymbol (octet : UInt8) (offset : Nat)
  deriving DecidableEq, Repr

/-- The wording of an error. -/
def Error.message : Error → String
  | .invalidByte b offset => "Invalid symbol " ++ toString b.toNat ++ ", offset " ++
      toString offset ++ "."
  | .invalidLength n => "Invalid input length: " ++ toString n
  | .invalidLastSymbol b offset => "Invalid last symbol " ++ toString b.toNat ++ ", offset " ++
      toString offset ++ "."

/-- The symbol at an offset. -/
def symbolAt (offset : Nat) (b : UInt8) : Except Error Nat :=
  match value? b with
  | some n => .ok n
  | none => .error (.invalidByte b offset)

/-- The symbols of the last group, which starts at `offset`, from its place `k`
    on: padding ends it, and may stand only after two symbols and before nothing
    but padding. -/
def lastSymbols (offset : Nat) : Nat → Bytes → Except Error (List (UInt8 × Nat))
  | _, [] => .ok []
  | k, b :: rest =>
    if b = pad then
      if k < 2 ∨ ∃ c ∈ rest, c ≠ pad then .error (.invalidByte pad (offset + k)) else .ok []
    else do
      let n ← symbolAt (offset + k) b
      return (b, n) :: (← lastSymbols offset (k + 1) rest)

/-- The bytes of the symbols of the last group. -/
def lastBytes (offset : Nat) : List (UInt8 × Nat) → Except Error Bytes
  | [] => .ok []
  | [_] => .error (.invalidLength (offset + 1))
  | [(_, w), (b, x)] =>
    if x % 16 = 0 then .ok [UInt8.ofNat (w * 4 + x / 16)]
    else .error (.invalidLastSymbol b (offset + 1))
  | [(_, w), (_, x), (b, y)] =>
    if y % 4 = 0 then .ok [UInt8.ofNat (w * 4 + x / 16), UInt8.ofNat (x % 16 * 16 + y / 4)]
    else .error (.invalidLastSymbol b (offset + 2))
  | (_, w) :: (_, x) :: (_, y) :: (_, z) :: _ =>
    .ok [UInt8.ofNat (w * 4 + x / 16), UInt8.ofNat (x % 16 * 16 + y / 4),
      UInt8.ofNat (y % 4 * 64 + z)]

/-- The bytes of groups of four octets, the first of them at an offset. A group
    is the last one when no octet follows it. -/
def decodeGroups (offset : Nat) : Bytes → Except Error Bytes
  | a :: b :: c :: d :: e :: rest => do
    let w ← symbolAt offset a
    let x ← symbolAt (offset + 1) b
    let y ← symbolAt (offset + 2) c
    let z ← symbolAt (offset + 3) d
    let tail ← decodeGroups (offset + 4) (e :: rest)
    return UInt8.ofNat (w * 4 + x / 16) :: UInt8.ofNat (x % 16 * 16 + y / 4) ::
      UInt8.ofNat (y % 4 * 64 + z) :: tail
  | last => do lastBytes offset (← lastSymbols offset 0 last)

/-- A foreign octet that stands alone after whole groups, such as a line end
    somebody pasted along. It is reported before anything else. -/
def strayEnd? (octets : Bytes) : Option UInt8 :=
  if octets.length % 4 = 1 then
    octets.getLast?.filter fun b => b != pad && (value? b).isNone
  else none

/-- The bytes a text stands for. -/
def decode (text : List Char) : Except Error Bytes :=
  let octets := Text.octets text
  match strayEnd? octets with
  | some b => .error (.invalidByte b (octets.length - 1))
  | none => decodeGroups 0 octets

end SecureInbox.Base64
