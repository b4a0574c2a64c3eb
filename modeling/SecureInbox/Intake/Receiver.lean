import SecureInbox.Assembly
import SecureInbox.Intake.Route

/-!
# Receiving

One receive event is assembled, classified and routed; when a message was
stored, its thread is notified last. Only a meaningless event and a fault of
the message store are errors.

A receiver is the buffer of parts together with the desk. It is not changed in
place: receiving gives back the next one.
-/

namespace SecureInbox

/-- Why an event was not taken in. -/
inductive IngestError
  | malformed (cause : Malformed)
  | storage (cause : StorageError)
  deriving DecidableEq, Repr

/-- The wording of an error. -/
def IngestError.message : IngestError → String
  | .malformed cause => "Malformed input: " ++ cause.reason
  | .storage cause => cause.message

/-- What stays the same from one event to the next. -/
structure Intake (μ σ : Type) where
  parties : Parties μ σ
  limits : Limits := {}
  policy : Policy := {}

/-- What changes with every event. -/
structure Receiver (μ σ : Type) where
  buffer : Buffer := []
  desk : Desk μ σ

variable {μ σ : Type}

namespace Intake

variable (intake : Intake μ σ)

/-- Routes a whole message and notifies its thread. -/
def deliver (secret : Option MasterSecret) (m : Message) (d : Desk μ σ) :
    Except IngestError Ingested × Desk μ σ :=
  match intake.parties.route intake.policy secret m d with
  | (.error e, d) => (.error (.storage e), d)
  | (.ok outcome, d) =>
    (.ok (.stored outcome),
      d.note (.notified (.messageReceived outcome.identity.thread secret.isSome)))

/-- Takes in one event at a time of the clock. -/
def receive (now : Nat) (secret : Option MasterSecret) (fragments : List Fragment)
    (tag : Option Tag) (r : Receiver μ σ) : Except IngestError Ingested × Receiver μ σ :=
  match r.buffer.assemble intake.limits now fragments tag with
  | (.error cause, buffer) => (.error (.malformed cause), { r with buffer })
  | (.ok (.awaiting identifier received expected), buffer) =>
    (.ok (.awaitingParts identifier received expected), { r with buffer })
  | (.ok (.ready m source), buffer) =>
    let (result, desk) := intake.deliver secret (m.classify source) r.desk
    (result, { buffer, desk })

/-- Takes in one event that comes with the number of a tag, if any. An unknown
    number is refused before the fragments are looked at. -/
def receivePush (now : Nat) (secret : Option MasterSecret) (fragments : List Fragment)
    (code : Option Int) (r : Receiver μ σ) : Except IngestError Ingested × Receiver μ σ :=
  match code with
  | none => intake.receive now secret fragments none r
  | some n =>
    match Tag.ofCode? n with
    | some tag => intake.receive now secret fragments (some tag) r
    | none => (.error (.malformed (.unknownPushType n)), r)

end Intake

end SecureInbox
