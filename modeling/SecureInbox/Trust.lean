import SecureInbox.Session.Store

/-!
# Trust

The *verdict* on key material comes from the answers of a session store, asked
in a fixed order: for a bundle first whether its prekey is still there, then
for both whether the sequence is out of date and whether the identity is the
known one. The first answer that settles the verdict ends the questions, and a
question that fails settles it too.

Asking changes no session. A verdict other than `trusted` may leave a flag on
the message; an untrusted identity leaves none, so that the user can look at
it.
-/

namespace SecureInbox

/-- Why key material is not accepted. -/
inductive Rejection
  | corrupted
  | unsupportedVersion
  | stalePreKey
  | untrusted
  | sessionUnavailable
  deriving DecidableEq, Repr

namespace Rejection

/-- How a reason is called in records. -/
def label : Rejection → String
  | .corrupted => "corrupted"
  | .unsupportedVersion => "unsupported_version"
  | .stalePreKey => "stale_pre_key"
  | .untrusted => "untrusted"
  | .sessionUnavailable => "session_unavailable"

/-- The flag a reason leaves on a message. -/
def flag : Rejection → Option Flag
  | .corrupted => some .corrupted
  | .unsupportedVersion => some .invalidVersion
  | .stalePreKey => some .stale
  | .sessionUnavailable => some .stale
  | .untrusted => none

/-- The reason that a fault comes to. -/
def ofError : KeyError → Rejection
  | .malformedBundle _ => .corrupted
  | .invalidKeyMaterial _ => .corrupted
  | .invalidVersion _ => .unsupportedVersion
  | .staleKeyMaterial _ => .stalePreKey
  | .sessionUnavailable _ => .sessionUnavailable

end Rejection

/-- What is thought of key material. -/
inductive Verdict
  | trusted
  | stale
  | invalid (reason : Rejection)
  deriving DecidableEq, Repr

/-- The flag a verdict leaves on a message. -/
def Verdict.flag : Verdict → Option Flag
  | .trusted => none
  | .stale => some .stale
  | .invalid reason => reason.flag

/-- A way to put questions, to a party with states in `δ`. -/
abbrev Inquiry (δ : Type) := Question → δ → Except KeyError Bool × δ

variable {δ : Type}

/-- The verdict on the identity of a sender. -/
def judgeIdentity (ask : Inquiry δ) (sender : String) (identity : IdentityKey) (d : δ) :
    Verdict × δ :=
  match ask (.trusted sender identity) d with
  | (.error e, d) => (.invalid (.ofError e), d)
  | (.ok false, d) => (.invalid .untrusted, d)
  | (.ok true, d) => (.trusted, d)

/-- The verdict on a sequence and an identity. -/
def judgeClaim (ask : Inquiry δ) (sender : String) (sequence : UInt32) (identity : IdentityKey)
    (d : δ) : Verdict × δ :=
  match ask (.stale sender sequence) d with
  | (.error e, d) => (.invalid (.ofError e), d)
  | (.ok true, d) => (.stale, d)
  | (.ok false, d) => judgeIdentity ask sender identity d

/-- The verdict on a key exchange. -/
def judgeExchange (ask : Inquiry δ) (sender : String) (x : KeyExchange) (d : δ) : Verdict × δ :=
  judgeClaim ask sender x.sequence x.identityKey d

/-- The verdict on a bundle. A prekey that is gone means that the bundle was
    taken in before. -/
def judgeBundle (ask : Inquiry δ) (sender : String) (x : PreKeyBundle) (d : δ) : Verdict × δ :=
  match ask (.prekey x.prekey) d with
  | (.error e, d) => (.invalid (.ofError e), d)
  | (.ok false, d) => (.invalid .stalePreKey, d)
  | (.ok true, d) => judgeClaim ask sender x.sequence x.identityKey d

end SecureInbox
