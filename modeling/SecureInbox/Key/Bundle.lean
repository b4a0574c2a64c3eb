import SecureInbox.Key.PublicKey
import SecureInbox.Wire

/-!
# Prekey bundles

A prekey bundle opens a session and brings its first ciphertext along. It names
one of the receiver's one-time prekeys. Its payload has a head of 75 bytes, the
version byte, the sequence, the prekey and two keys, and at least one byte of
ciphertext.

An accepted bundle is replaced by the message inside it
(`PreKeyBundle.innerBody`).
-/

namespace SecureInbox

/-- Key material with a first ciphertext. -/
structure PreKeyBundle where
  version : UInt8
  sequence : UInt32
  /-- The one-time prekey that was used. -/
  prekey : UInt32
  baseKey : PublicKey
  identityKey : IdentityKey
  /-- The ciphertext of the message inside. -/
  inner : Bytes
  deriving DecidableEq

namespace PreKeyBundle

/-- The number of bytes before the ciphertext. -/
def headSize : Nat := 75

/-- The payload of a bundle. -/
def payload (x : PreKeyBundle) : Bytes :=
  Wire.versionByte x.version :: (Bytes.ofWord x.sequence ++ Bytes.ofWord x.prekey ++
    x.baseKey.bytes ++ x.identityKey.key.bytes ++ x.inner)

/-- The body of a bundle. -/
def encode (x : PreKeyBundle) : String := Wire.encodeBody .preKeyBundle x.payload

/-- The message inside, as a body of its own. -/
def innerBody (x : PreKeyBundle) : String :=
  Wire.encodeBody .secureCiphertext (Wire.versionByte x.version :: x.inner)

/-- The bundle in a payload. The version is looked at before the length. -/
def ofPayload : Bytes → Except KeyError PreKeyBundle
  | [] => .error (.malformedBundle "empty payload")
  | head :: rest =>
    let version := Wire.messageVersion head
    if !Wire.isSupported version then .error (.invalidVersion version)
    else if rest.length + 1 ≤ headSize then
      .error (.malformedBundle ("bundle too short: " ++ toString (rest.length + 1) ++ " bytes"))
    else do
      let baseKey ← PublicKey.ofBytes ((rest.drop 8).take PublicKey.size)
      let identityKey ← PublicKey.ofBytes ((rest.drop 41).take PublicKey.size)
      return { version
               sequence := Bytes.firstWord rest
               prekey := Bytes.firstWord (rest.drop 4)
               baseKey
               identityKey := ⟨identityKey⟩
               inner := rest.drop 74 }

/-- The bundle a body carries. -/
def decode (body : String) : Except KeyError PreKeyBundle :=
  match Wire.decodePayload body with
  | .error cause => .error (.malformedBundle ("bad encoding: " ++ cause.message))
  | .ok payload => ofPayload payload

end PreKeyBundle

end SecureInbox
