import SecureInbox.Intake.Outcome
import SecureInbox.Session.Store

/-!
# The desk

Routing a message deals with several parties: a message store and a session
store, whose states it carries along, and two that are only told things, the
worker that decrypts and whoever shows notifications. All of it is written down
in a *journal*, oldest entry first. Jobs and notifications are nothing but
entries of the journal; there is no other record of them.
-/

namespace SecureInbox

/-- What the decryption worker is asked to do. -/
structure DecryptionJob where
  secret : MasterSecret
  identity : StoredIdentity
  sender : String
  body : String
  isSecure : Bool
  isKeyExchange : Bool
  deriving DecidableEq

/-- What is told to whoever shows notifications. -/
inductive Notice
  /-- A thread has a new message; the flag tells whether a live secret was
      there. -/
  | messageReceived (thread : ThreadId) (unlocked : Bool)
  /-- The session with the other side of a thread was updated. -/
  | securityUpdated (thread : ThreadId)
  deriving DecidableEq, Repr

/-- An entry of the journal. Calls of a store are entered with the answer. -/
inductive Act
  | asked (question : Question) (answer : Except KeyError Bool)
  | committed (commit : Commit) (answer : Except KeyError Unit)
  | inserted (placement : Placement) (message : Message)
      (answer : Except StorageError StoredIdentity)
  | scheduled (job : DecryptionJob)
  | notified (notice : Notice)

/-- The stores that routing deals with. -/
structure Parties (μ σ : Type) where
  messages : MessageStore μ
  sessions : SessionStore σ

/-- The states of the stores and the journal. -/
structure Desk (μ σ : Type) where
  messages : μ
  sessions : σ
  journal : List Act := []

/-- The job in an entry. -/
def Act.job? : Act → Option DecryptionJob
  | .scheduled job => some job
  | _ => none

/-- The notification in an entry. -/
def Act.notice? : Act → Option Notice
  | .notified notice => some notice
  | _ => none

variable {μ σ : Type}

namespace Desk

/-- The desk with one more entry in its journal. -/
def note (d : Desk μ σ) (act : Act) : Desk μ σ := { d with journal := d.journal ++ [act] }

/-- The jobs in the journal. -/
def jobs (d : Desk μ σ) : List DecryptionJob := d.journal.filterMap Act.job?

/-- The notifications in the journal. -/
def notices (d : Desk μ σ) : List Notice := d.journal.filterMap Act.notice?

end Desk

namespace Parties

variable (p : Parties μ σ)

/-- Puts a question to the session store. -/
def ask (question : Question) (d : Desk μ σ) : Except KeyError Bool × Desk μ σ :=
  let (answer, sessions) := p.sessions.ask question d.sessions
  (answer, { d with sessions }.note (.asked question answer))

/-- Commits key material to the session store. -/
def commit (c : Commit) (d : Desk μ σ) : Except KeyError Unit × Desk μ σ :=
  let (answer, sessions) := p.sessions.commit c d.sessions
  (answer, { d with sessions }.note (.committed c answer))

/-- Hands a message to the message store. -/
def insert (placement : Placement) (m : Message) (d : Desk μ σ) :
    Except StorageError StoredIdentity × Desk μ σ :=
  let (answer, messages) := p.messages.insert placement m d.messages
  (answer, { d with messages }.note (.inserted placement m answer))

end Parties

end SecureInbox
