import SecureInbox.Secret.Sha256
import SecureInbox.Text.Hex

/-!
# Master secrets

Whoever stores messages encrypts them under a *master secret*: a cipher key and
a key for authentication, both derived from one root of 32 bytes. Nothing is
encrypted here; a secret is only chosen, handed on and named by its
fingerprint, which does not give the keys away.
-/

namespace SecureInbox

/-- The secret messages are stored under. -/
structure MasterSecret where
  /-- The key that message bodies are encrypted with. -/
  cipherKey : Block 32
  /-- The key that stored bodies are authenticated with. -/
  macKey : Block 32
  deriving DecidableEq

/-- Why no secret could be made. -/
inductive SecretError
  | invalidEncoding (cause : Hex.Error)
  | invalidLength (length : Nat)
  deriving DecidableEq, Repr

/-- The wording of an error. -/
def SecretError.message : SecretError → String
  | .invalidEncoding cause => "Invalid secret encoding: " ++ cause.message
  | .invalidLength n => "Secret must be 32 bytes, got " ++ toString n

namespace MasterSecret

/-- The bytes of a text of the ASCII range. -/
private def label (text : String) : Bytes := Text.octets text.toList

/-- The salt of the derivation; it names the version of the scheme. -/
def salt : Bytes := label "sms-intake-master-v1"

/-- Both keys from a root secret, by HKDF (RFC 5869) over SHA-256: one
    extraction, and for each purpose an expansion to a single block. -/
def derive (root : Bytes) : Except SecretError MasterSecret :=
  if root.length = 32 then
    let extracted := (Sha256.keyed salt root).1
    .ok ⟨Sha256.keyed extracted (label "message-cipher" ++ [1]),
      Sha256.keyed extracted (label "message-mac" ++ [1])⟩
  else .error (.invalidLength root.length)

/-- The secret whose root is written in hexadecimal, blanks around it apart. -/
def ofHex (text : String) : Except SecretError MasterSecret :=
  match Hex.decode (Text.trim text.toList) with
  | .ok root => derive root
  | .error cause => .error (.invalidEncoding cause)

/-- The name of a secret in records and logs: the first eight bytes of the hash
    of both keys. -/
def fingerprint (s : MasterSecret) : String :=
  Hex.text ((Sha256.hash (s.cipherKey.1 ++ s.macKey.1)).1.take 8)

/-- How a secret is shown to a developer: by its fingerprint alone. -/
def debugText (s : MasterSecret) : String :=
  "MasterSecret \x7b fingerprint: \"" ++ s.fingerprint ++ "\" \x7d"

end MasterSecret

end SecureInbox
