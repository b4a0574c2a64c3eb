/-!
# Kinds and tags

Every message has one *kind*: plain text, ciphertext, a key exchange, or a
prekey bundle, which is a key exchange carrying a first ciphertext. Push
transports declare the kind out of band by a *tag*, or by the number that
stands for a tag.
-/

namespace SecureInbox

/-- The security type of a message. -/
inductive Kind
  | plain
  | secureCiphertext
  | keyExchange
  | preKeyBundle
  deriving DecidableEq, Repr

namespace Kind

/-- How a kind is called in records. -/
def label : Kind → String
  | .plain => "plain"
  | .secureCiphertext => "secure_ciphertext"
  | .keyExchange => "key_exchange"
  | .preKeyBundle => "pre_key_bundle"

/-- How a kind is shown to a person. -/
def displayName : Kind → String
  | .preKeyBundle => "prekey_bundle"
  | kind => kind.label

/-- The body is ciphertext. -/
def isSecure : Kind → Bool
  | .secureCiphertext => true
  | _ => false

/-- The body holds key material. -/
def isKeyExchange : Kind → Bool
  | .keyExchange => true
  | .preKeyBundle => true
  | _ => false

end Kind

/-- What a push transport says a message is. -/
inductive Tag
  | ciphertext
  | keyExchange
  | preKeyBundle
  | plaintext
  deriving DecidableEq, Repr

namespace Tag

/-- How a tag is called in records. -/
def label : Tag → String
  | .ciphertext => "ciphertext"
  | .keyExchange => "key_exchange"
  | .preKeyBundle => "pre_key_bundle"
  | .plaintext => "plaintext"

/-- The kind a tag declares; the body is not looked at. -/
def kind : Tag → Kind
  | .ciphertext => .secureCiphertext
  | .keyExchange => .keyExchange
  | .preKeyBundle => .preKeyBundle
  | .plaintext => .plain

/-- The tag a push transport's number stands for. -/
def ofCode? : Int → Option Tag
  | 1 => some .ciphertext
  | 2 => some .keyExchange
  | 3 => some .preKeyBundle
  | 4 => some .plaintext
  | _ => none

end Tag

end SecureInbox
