import SecureInbox.Session.Store
import SecureInbox.Table

/-!
# The session ledger

A session store in memory. The first identity a sender comes with is believed;
from then on it is the only one. Every sender has an *epoch*, the lowest
sequence that is still accepted, and a commit moves it past the sequence
committed. A prekey is removed when a bundle that names it is committed.

The ledger answers truthfully but enforces little: a commit replaces the
identity and advances the epoch whatever the verdict on the key material was.
Only a bundle whose prekey is missing cannot be committed.
-/

namespace SecureInbox

/-- The state of the session with one sender. -/
structure Session where
  /-- The lowest sequence still accepted. It can be one above every 32-bit
      sequence. -/
  epoch : Nat := 0
  identity : Option IdentityKey := none
  /-- The thread that the last key exchange was stored in. -/
  thread : Option ThreadId := none
  commits : Nat := 0
  deriving DecidableEq

/-- The session after key material was committed. -/
def Session.advance (s : Session) (sequence : UInt32) (identity : IdentityKey) : Session :=
  { s with
    epoch := max s.epoch sequence.toNat + 1
    identity := some identity
    commits := s.commits + 1 }

/-- The sessions of all senders and the prekeys that are left. -/
structure Ledger where
  sessions : Table Session := []
  prekeys : List UInt32 := []
  deriving DecidableEq

namespace Ledger

/-- The session of a sender; a new one if there is none yet. -/
def session (l : Ledger) (sender : String) : Session := (l.sessions.get? sender).getD {}

/-- The ledger with the session of a sender replaced. -/
def setSession (l : Ledger) (sender : String) (s : Session) : Ledger :=
  { l with sessions := l.sessions.set sender s }

/-- The true answer to a question. -/
def answer (l : Ledger) : Question → Bool
  | .stale sender sequence => sequence.toNat < (l.session sender).epoch
  | .trusted sender identity => (l.session sender).identity.all (· == identity)
  | .prekey id => l.prekeys.contains id

/-- Commits key material. -/
def commit : Commit → Ledger → Except KeyError Unit × Ledger
  | .exchange sender x thread, l =>
    let s := (l.session sender).advance x.sequence x.identityKey
    (.ok (), l.setSession sender { s with thread := some thread })
  | .bundle sender x, l =>
    if l.prekeys.contains x.prekey then
      let used := { l with prekeys := l.prekeys.filter (· != x.prekey) }
      (.ok (), used.setSession sender
        ((l.session sender).advance x.sequence x.identityKey))
    else
      (.error (.staleKeyMaterial ("prekey " ++ toString x.prekey.toNat ++ " not found")), l)

/-- The ledger as a session store. -/
def store : SessionStore Ledger where
  ask question l := (.ok (l.answer question), l)
  commit := commit

@[simp]
theorem session_setSession (l : Ledger) (sender other : String) (s : Session) :
    (l.setSession sender s).session other = if sender = other then s else l.session other := by
  by_cases h : sender = other <;> simp [session, setSession, h]

@[simp]
theorem prekeys_setSession (l : Ledger) (sender : String) (s : Session) :
    (l.setSession sender s).prekeys = l.prekeys := rfl

end Ledger

end SecureInbox
