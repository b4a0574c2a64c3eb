import SecureInbox.Key.PublicKey
import SecureInbox.Wire

/-!
# Key exchanges

A key exchange announces the keys of a party, under a sequence number that has
to grow from one exchange to the next. Its payload is 71 bytes: the version
byte, the sequence and two keys.

Only the form is checked here; whether the keys are believed is decided in
`Trust`.
-/

namespace SecureInbox

/-- The start or the answer of a key exchange. -/
structure KeyExchange where
  version : UInt8
  sequence : UInt32
  publicKey : PublicKey
  identityKey : IdentityKey
  deriving DecidableEq

namespace KeyExchange

/-- The number of bytes of a payload. -/
def size : Nat := 71

/-- The payload of a key exchange. -/
def payload (x : KeyExchange) : Bytes :=
  Wire.versionByte x.version :: (Bytes.ofWord x.sequence ++ x.publicKey.bytes ++
    x.identityKey.key.bytes)

/-- The body of a key exchange. -/
def encode (x : KeyExchange) : String := Wire.encodeBody .keyExchange x.payload

/-- The key exchange in a payload. The version is looked at before the
    length. -/
def ofPayload : Bytes → Except KeyError KeyExchange
  | [] => .error (.invalidKeyMaterial "empty payload")
  | head :: rest =>
    let version := Wire.messageVersion head
    if !Wire.isSupported version then .error (.invalidVersion version)
    else if rest.length + 1 ≠ size then
      .error (.invalidKeyMaterial
        ("key exchange must be 71 bytes, got " ++ toString (rest.length + 1)))
    else do
      let publicKey ← PublicKey.ofBytes ((rest.drop 4).take PublicKey.size)
      let identityKey ← PublicKey.ofBytes (rest.drop 37)
      return ⟨version, Bytes.firstWord rest, publicKey, ⟨identityKey⟩⟩

/-- The key exchange a body carries. -/
def decode (body : String) : Except KeyError KeyExchange :=
  match Wire.decodePayload body with
  | .error cause => .error (.invalidKeyMaterial ("bad encoding: " ++ cause.message))
  | .ok payload => ofPayload payload

end KeyExchange

end SecureInbox
