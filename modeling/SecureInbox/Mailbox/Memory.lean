import SecureInbox.Mailbox.Store
import SecureInbox.Table

/-!
# The mailbox

A message store that keeps its records in memory and never fails. Messages are
counted as they come, and the count is the number of the message. Every sender
has a thread, which is looked up in a table; a sender who is not in the table yet
gets a thread that is numbered by the size the table comes to.
-/

namespace SecureInbox

/-- The inbox a record is in. Of the secret only the fingerprint is kept. -/
inductive Inbox
  | plaintext
  | encrypted (secret : Option String)
  deriving DecidableEq, Repr

/-- The inbox a placement leads to. -/
def Placement.inbox : Placement → Inbox
  | .plaintext => .plaintext
  | .encrypted secret => .encrypted (secret.map (·.fingerprint))

/-- A message as it was stored. -/
structure StoredRecord where
  identity : StoredIdentity
  sender : String
  body : String
  timestamp : UInt64
  kind : Kind
  flags : Flags
  inbox : Inbox
  deriving DecidableEq, Repr

/-- The records in order, the threads of the senders, and the counter of messages. -/
structure Mailbox where
  records : List StoredRecord := []
  threads : Table ThreadId := []
  /-- The number of the latest message. -/
  lastMessage : Nat := 0
  deriving DecidableEq

namespace Mailbox

/-- The thread of a sender, if anything of theirs is stored. -/
def threadOf? (box : Mailbox) (sender : String) : Option ThreadId := box.threads.get? sender

/-- Appends the record of a message. A sender without a thread is given the one after as
    many as there are. -/
def insert (placement : Placement) (m : Message) (box : Mailbox) : StoredIdentity × Mailbox :=
  let lastMessage := box.lastMessage + 1
  let (thread, threads) := box.threads.getOrSet m.sender ⟨box.threads.length + 1⟩
  let identity := { message := ⟨lastMessage⟩, thread }
  (identity,
    { records := box.records ++ [{
        identity
        sender := m.sender
        body := m.body
        timestamp := m.timestamp
        kind := m.kind
        flags := m.flags
        inbox := placement.inbox }]
      threads
      lastMessage })

/-- The mailbox as a message store. -/
def store : MessageStore Mailbox where
  insert placement m box :=
    let (identity, box) := box.insert placement m
    (.ok identity, box)

end Mailbox

end SecureInbox
