import SecureInbox.Message.Basic
import SecureInbox.Secret.Master

/-!
# Message stores

A message store takes messages in one at a time and gives each an identity: a
number of its own and the number of the thread it belongs to. A message goes
into the plaintext inbox, or into the encrypted one under a secret; ciphertext
may be put there without a secret, as it was received.

A store is any state with an insertion that may fail. Nothing else is assumed
of it.
-/

namespace SecureInbox

/-- The number of a stored message. -/
structure MessageId where
  val : Nat
  deriving DecidableEq, Repr

/-- The number of a conversation. -/
structure ThreadId where
  val : Nat
  deriving DecidableEq, Repr

/-- What a store calls a message it has taken in. -/
structure StoredIdentity where
  message : MessageId
  thread : ThreadId
  deriving DecidableEq, Repr

/-- Why a store did not take a message in. -/
inductive StorageError
  | insertFailed (reason : String)
  | unavailable (reason : String)
  deriving DecidableEq, Repr

/-- The wording of an error. -/
def StorageError.message : StorageError → String
  | .insertFailed reason => "Insert failed: " ++ reason
  | .unavailable reason => "Store unavailable: " ++ reason

/-- Where a message is put. -/
inductive Placement
  | plaintext
  | encrypted (secret : Option MasterSecret)
  deriving DecidableEq

/-- A store of messages with states in `μ`. -/
structure MessageStore (μ : Type) where
  /-- Takes a message in; the state may change even when this fails. -/
  insert : Placement → Message → μ → Except StorageError StoredIdentity × μ

end SecureInbox
