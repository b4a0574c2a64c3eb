import SecureInbox.Mailbox.Store

/-!
# Message stores that fail

Stores to rehearse failure with: one that refuses every message and counts
them, and one that fails on request.
-/

namespace SecureInbox.MessageStore

/-- The store that refuses every message; its state counts the attempts. -/
def refusing : MessageStore Nat where
  insert _ _ attempts := (.error (.insertFailed "mock store rejects inserts"), attempts + 1)

/-- The store that fails with an error while there is one, and otherwise does as
    the store inside. -/
def interruptible {μ : Type} (inside : MessageStore μ) :
    MessageStore (Option StorageError × μ) where
  insert placement m state :=
    match state with
    | (some error, inner) => (.error error, (some error, inner))
    | (none, inner) =>
      let (answer, inner) := inside.insert placement m inner
      (answer, (none, inner))

end SecureInbox.MessageStore
