import SecureInbox.Key.Bundle
import SecureInbox.Key.Exchange
import SecureInbox.Mailbox.Store

/-!
# Session stores

A session store knows, for every sender, how far the exchange of keys has got
and which identity they have, and which one-time prekeys are left. It is asked
*questions* about key material before that is believed, and a *commit* tells it
that key material was accepted. Commits are not idempotent.

A store is any state that answers. It may fail at any call, and its answers
need not agree with each other.
-/

namespace SecureInbox

/-- What a session store is asked. -/
inductive Question
  /-- Is this sequence older than the session of the sender? -/
  | stale (sender : String) (sequence : UInt32)
  /-- Is this the identity of the sender, or may it become it? -/
  | trusted (sender : String) (identity : IdentityKey)
  /-- Is this prekey still there? -/
  | prekey (id : UInt32)
  deriving DecidableEq

/-- Key material that was accepted. -/
inductive Commit
  /-- A key exchange, which is stored in a thread. -/
  | exchange (sender : String) (x : KeyExchange) (thread : ThreadId)
  /-- A bundle, which uses up the prekey it names. -/
  | bundle (sender : String) (x : PreKeyBundle)
  deriving DecidableEq

/-- A store of sessions with states in `σ`. -/
structure SessionStore (σ : Type) where
  ask : Question → σ → Except KeyError Bool × σ
  commit : Commit → σ → Except KeyError Unit × σ

end SecureInbox
