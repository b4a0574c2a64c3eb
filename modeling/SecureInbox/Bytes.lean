/-!
# Bytes

A payload is a list of bytes. Key material comes in *blocks*, byte strings of
one fixed length, and in 32-bit words written with the most significant byte
first.

* `Bytes.firstWord_ofWord_append`: reading back the four bytes of a word gives the word.
-/

namespace SecureInbox

/-- A byte string. -/
abbrev Bytes := List UInt8

/-- A byte string of one fixed length. -/
abbrev Block (n : Nat) := { bytes : Bytes // bytes.length = n }

/-- The block that holds one byte `n` times. -/
def Block.fill (n : Nat) (b : UInt8) : Block n := ⟨List.replicate n b, List.length_replicate⟩

/-- The byte string as a block, when it has the length asked for. -/
def Block.ofBytes? (n : Nat) (bytes : Bytes) : Option (Block n) :=
  if h : bytes.length = n then some ⟨bytes, h⟩ else none

namespace Bytes

/-- The four bytes of a word, the most significant first. -/
def ofWord (w : UInt32) : Bytes :=
  [UInt8.ofNat (w.toNat / 16777216), UInt8.ofNat (w.toNat / 65536),
    UInt8.ofNat (w.toNat / 256), UInt8.ofNat w.toNat]

/-- The word whose four bytes, the most significant first, are given. -/
def toWord (a b c d : UInt8) : UInt32 :=
  UInt32.ofNat (((a.toNat * 256 + b.toNat) * 256 + c.toNat) * 256 + d.toNat)

/-- The word at the start of a byte string; bytes that are missing count as
    zero. -/
def firstWord : Bytes → UInt32
  | a :: b :: c :: d :: _ => toWord a b c d
  | short => toWord (short.getD 0 0) (short.getD 1 0) (short.getD 2 0) (short.getD 3 0)

@[simp]
theorem length_ofWord (w : UInt32) : (ofWord w).length = 4 := rfl

theorem firstWord_ofWord_append (w : UInt32) (rest : Bytes) :
    firstWord (ofWord w ++ rest) = w := by
  have h : w.toNat < 4294967296 := w.toNat_lt
  apply UInt32.toNat_inj.1
  simp only [ofWord, List.cons_append, List.nil_append, firstWord, toWord, UInt32.toNat_ofNat',
    UInt8.toNat_ofNat']
  omega

end Bytes

end SecureInbox
