import SecureInbox.Mailbox.Store

/-!
# Outcomes

What is reported of a message that was stored: the identity the store gave it,
its final kind and flags, and the *path* it took. The outcome is *degraded*
when the message is stored but the session of its sender could not be brought
up to date with it.
-/

namespace SecureInbox

/-- The secret that an encrypted message was stored under. -/
inductive SecretOrigin
  /-- The secret that was unlocked at the time. -/
  | live
  /-- The secret that is always at hand. -/
  | asymmetric
  deriving DecidableEq, Repr

/-- The path a message took into the store. -/
inductive StoragePath
  | plaintext
  | encrypted (origin : SecretOrigin)
  | secure
  deriving DecidableEq, Repr

/-- How a session fell behind the messages stored. -/
inductive Degraded
  | sessionCommitFailed (error : String)
  deriving DecidableEq, Repr

/-- The report on a stored message. -/
structure Outcome where
  identity : StoredIdentity
  kind : Kind
  path : StoragePath
  flags : Flags
  degraded : Option Degraded := none
  deriving DecidableEq, Repr

/-- The outcome for a message that a store took in. -/
def Outcome.ofMessage (identity : StoredIdentity) (m : Message) (path : StoragePath) : Outcome where
  identity := identity
  kind := m.kind
  path := path
  flags := m.flags

/-- The outcome with the fault that a commit failed with. -/
def Outcome.degrade (o : Outcome) (error : String) : Outcome :=
  { o with degraded := some (.sessionCommitFailed error) }

/-- What is reported of one receive event. -/
inductive Ingested
  | stored (outcome : Outcome)
  /-- Parts are missing, and nothing was stored. -/
  | awaitingParts (identifier : UInt8) (received expected : Nat)
  deriving DecidableEq, Repr

/-- The outcome, if a message was stored. -/
def Ingested.outcome? : Ingested → Option Outcome
  | .stored outcome => some outcome
  | .awaitingParts _ _ _ => none

end SecureInbox
