import SecureInbox.Key.Error
import SecureInbox.Text.Hex

/-!
# Public keys

A Curve25519 public key is 32 bytes, written after a byte that tells the type
of key. The key of only zeros is refused when it is read, though it can be
made.
-/

namespace SecureInbox

/-- A Curve25519 public key. -/
structure PublicKey where
  raw : Block 32
  deriving DecidableEq

/-- The key that a remote party keeps for good. -/
structure IdentityKey where
  key : PublicKey
  deriving DecidableEq

namespace PublicKey

/-- The byte that marks a Curve25519 key. -/
def typeByte : UInt8 := 5

/-- The number of bytes of a written key. -/
def size : Nat := 33

/-- The written form of a key. -/
def bytes (k : PublicKey) : Bytes := typeByte :: k.raw.1

/-- The key of so many bytes. The length is checked first, then the type, then
    that some byte is not zero. -/
def ofBytes (bytes : Bytes) : Except KeyError PublicKey :=
  match bytes with
  | type :: raw =>
    if h : raw.length = 32 then
      if type ≠ typeByte then
        .error (.invalidKeyMaterial ("unknown key type 0x" ++ Hex.text [type]))
      else if raw.all (· == 0) then .error (.invalidKeyMaterial "all-zero public key")
      else .ok ⟨raw, h⟩
    else .error (wrongLength bytes)
  | [] => .error (wrongLength bytes)
where
  /-- The fault of a key of another length. -/
  wrongLength (bytes : Bytes) : KeyError :=
    .invalidKeyMaterial ("public key must be 33 bytes, got " ++ toString bytes.length)

/-- The digits of the raw key. -/
def fingerprint (k : PublicKey) : String := Hex.text k.raw.1

/-- How a key is shown to a developer: by the first digits of its
    fingerprint. -/
def debugText (k : PublicKey) : String :=
  "PublicKey(" ++ String.ofList ((Hex.encode k.raw.1).take 16) ++ ")"

end PublicKey

/-- How an identity key is shown to a developer. -/
def IdentityKey.debugText (k : IdentityKey) : String := "IdentityKey(" ++ k.key.debugText ++ ")"

end SecureInbox
