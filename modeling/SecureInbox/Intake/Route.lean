import SecureInbox.Intake.Desk
import SecureInbox.Trust

/-!
# Routing

Every classified message is inserted exactly once, along one of two paths.

* *Secure*, for ciphertext: into the encrypted inbox, with the live secret if
  there is one; then a decryption job is scheduled.
* *Standard*, for everything else: into the encrypted inbox under the live
  secret or else under the fallback secret, and into the plaintext inbox when
  there is neither.

A trusted bundle is committed first and then replaced by the ciphertext inside
it, which takes the secure path. A trusted key exchange is stored, marked as
processed, and then committed. When a commit fails the message is still stored
once, and its outcome is degraded. Key material that cannot be read or is not
trusted takes the standard path, with a flag that tells why. A key exchange is
only looked at when a live secret is there and exchanges are answered
automatically; otherwise it is left for the user.

Faults of key material end here. Faults of the message store are returned.
-/

namespace SecureInbox

/-- The choices of the owner that routing depends on. -/
structure Policy where
  /-- Answer trusted key exchanges without asking. -/
  autoRespond : Bool := true
  /-- The secret to store under when no live one is there. -/
  fallback : Option MasterSecret := none
  deriving DecidableEq

variable {μ σ : Type}

namespace Parties

variable (p : Parties μ σ)

/-- What routing gives back: an outcome or the fault of the message store, and
    the desk. -/
abbrev Routed (μ σ : Type) := Except StorageError Outcome × Desk μ σ

/-- The job of decrypting a stored message. -/
def jobFor (secret : MasterSecret) (identity : StoredIdentity) (m : Message) : DecryptionJob where
  secret := secret
  identity := identity
  sender := m.sender
  body := m.body
  isSecure := m.kind.isSecure
  isKeyExchange := m.kind.isKeyExchange

/-- Stores a message on the secure path. -/
def storeSecure (secret : Option MasterSecret) (m : Message) (d : Desk μ σ) : Routed μ σ :=
  match p.insert (.encrypted secret) m d with
  | (.error e, d) => (.error e, d)
  | (.ok identity, d) =>
    (.ok (Outcome.ofMessage identity m .secure),
      match secret with
      | some s => d.note (.scheduled (jobFor s identity m))
      | none => d)

/-- The inbox and the path of the standard path. -/
def standardPlace (policy : Policy) : Option MasterSecret → Placement × StoragePath
  | some live => (.encrypted (some live), .encrypted .live)
  | none =>
    match policy.fallback with
    | some fallback => (.encrypted (some fallback), .encrypted .asymmetric)
    | none => (.plaintext, .plaintext)

/-- Stores a message on the standard path. -/
def storeStandard (policy : Policy) (secret : Option MasterSecret) (m : Message) (d : Desk μ σ) :
    Routed μ σ :=
  let (placement, path) := standardPlace policy secret
  match p.insert placement m d with
  | (.error e, d) => (.error e, d)
  | (.ok identity, d) => (.ok (Outcome.ofMessage identity m path), d)

/-- Marks what was stored as degraded by a fault. -/
def degradedBy (error : KeyError) : Routed μ σ → Routed μ σ
  | (.ok outcome, d) => (.ok (outcome.degrade error.message), d)
  | (.error e, d) => (.error e, d)

/-- Stores the ciphertext inside a committed bundle. -/
def storeInner (secret : Option MasterSecret) (m : Message) (x : PreKeyBundle) (d : Desk μ σ) :
    Routed μ σ :=
  match p.storeSecure secret (m.withBody x.innerBody .secureCiphertext) d with
  | (.error e, d) => (.error e, d)
  | (.ok outcome, d) =>
    (.ok outcome, d.note (.notified (.securityUpdated outcome.identity.thread)))

/-- Commits a trusted bundle and stores what is inside it. -/
def acceptBundle (policy : Policy) (secret : Option MasterSecret) (m : Message) (x : PreKeyBundle)
    (d : Desk μ σ) : Routed μ σ :=
  match p.commit (.bundle m.sender x) d with
  | (.error e, d) => degradedBy e (p.storeStandard policy secret (m.withFlag e.flag) d)
  | (.ok (), d) => p.storeInner secret m x d

/-- Routes a prekey bundle. -/
def routeBundle (policy : Policy) (secret : Option MasterSecret) (m : Message) (d : Desk μ σ) :
    Routed μ σ :=
  match PreKeyBundle.decode m.body with
  | .error e => p.storeStandard policy secret (m.withFlag e.flag) d
  | .ok x =>
    match judgeBundle p.ask m.sender x d with
    | (.trusted, d) => p.acceptBundle policy secret m x d
    | (verdict, d) => p.storeStandard policy secret (m.withFlag? verdict.flag) d

/-- Stores a trusted key exchange and commits it. -/
def acceptExchange (policy : Policy) (live : MasterSecret) (m : Message) (x : KeyExchange)
    (d : Desk μ σ) : Routed μ σ :=
  match p.storeStandard policy (some live) (m.withFlag .processed) d with
  | (.error e, d) => (.error e, d)
  | (.ok outcome, d) =>
    match p.commit (.exchange m.sender x outcome.identity.thread) d with
    | (.ok (), d) => (.ok outcome, d)
    | (.error e, d) => (.ok (outcome.degrade e.message), d)

/-- Routes a key exchange that is answered under a live secret. -/
def answerExchange (policy : Policy) (live : MasterSecret) (m : Message) (d : Desk μ σ) :
    Routed μ σ :=
  match KeyExchange.decode m.body with
  | .error e => p.storeStandard policy (some live) (m.withFlag e.flag) d
  | .ok x =>
    match judgeExchange p.ask m.sender x d with
    | (.trusted, d) => p.acceptExchange policy live m x d
    | (verdict, d) => p.storeStandard policy (some live) (m.withFlag? verdict.flag) d

/-- Routes a key exchange. -/
def routeExchange (policy : Policy) (secret : Option MasterSecret) (m : Message) (d : Desk μ σ) :
    Routed μ σ :=
  match secret, policy.autoRespond with
  | some live, true => p.answerExchange policy live m d
  | _, _ => p.storeStandard policy secret m d

/-- Stores a classified message, exactly once. -/
def route (policy : Policy) (secret : Option MasterSecret) (m : Message) (d : Desk μ σ) :
    Routed μ σ :=
  match m.kind with
  | .secureCiphertext => p.storeSecure secret m d
  | .preKeyBundle => p.routeBundle policy secret m d
  | .keyExchange => p.routeExchange policy secret m d
  | .plain => p.storeStandard policy secret m d

end Parties

end SecureInbox
