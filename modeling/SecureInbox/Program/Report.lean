import SecureInbox.Config.Basic
import SecureInbox.Intake.Feed
import SecureInbox.Intake.Receiver
import SecureInbox.Record.Mailbox
import SecureInbox.Session.Ledger

/-!
# The report on several events

Events are taken in one after the other by a new receiver over a mailbox and a
ledger. The report tells what became of each, which notifications were read off
a feed, what was given to the worker that decrypts, and what the mailbox holds in
the end. There is no report when an event is refused.
-/

namespace SecureInbox

/-- An event with the time on the clock when it is taken in. -/
structure TimedEvent where
  time : Nat
  fragments : List Fragment
  deriving DecidableEq

/-- The report on several events. -/
structure Report where
  results : List Ingested
  notices : List Notice
  /-- How many notifications were lost because the feed was full. -/
  missed : Nat
  jobs : List DecryptionJob
  stored : List StoredRecord
  deriving DecidableEq

/-- Takes in events that come with the number of a tag, if any, up to the first
    that is refused. -/
def Intake.receiveAll {μ σ : Type} (intake : Intake μ σ) (secret : Option MasterSecret)
    (code : Option Int) : List TimedEvent → Receiver μ σ →
    Except IngestError (List Ingested) × Receiver μ σ
  | [], r => (.ok [], r)
  | e :: rest, r =>
    match intake.receivePush e.time secret e.fragments code r with
    | (.error cause, r) => (.error cause, r)
    | (.ok result, r) =>
      match receiveAll intake secret code rest r with
      | (.error cause, r) => (.error cause, r)
      | (.ok results, r) => (.ok (result :: results), r)

namespace Report

/-- What is chosen for a report, apart from the configuration. -/
structure Setting where
  secret : Option MasterSecret := none
  fallback : Option MasterSecret := none
  /-- The number of the tag that all events come with. -/
  pushType : Option Int := none
  prekeys : List UInt32 := []

/-- The most notifications that one event gives rise to. -/
def noticesPerEvent : Nat := 2

/-- The intake over a mailbox and a ledger. -/
def intake (c : Config) (s : Setting) : Intake Mailbox Ledger where
  parties := { messages := Mailbox.store, sessions := Ledger.store }
  limits := c.limits
  policy := { autoRespond := c.autoRespond, fallback := s.fallback }

/-- The new receiver. -/
def receiver (s : Setting) : Receiver Mailbox Ledger where
  desk := { messages := {}, sessions := { prekeys := s.prekeys } }

/-- What a reader is given who was there from the start. -/
def readNotices (capacity : Nat) (notices : List Notice) : List (Delivery Notice) :=
  (notices.foldl Feed.publish (Feed.ofCapacity capacity)).drain 0

/-- The report on events. -/
def ofEvents (c : Config) (s : Setting) (events : List TimedEvent) : Except IngestError Report :=
  match (intake c s).receiveAll s.secret s.pushType events (receiver s) with
  | (.error cause, _) => .error cause
  | (.ok results, r) =>
    let read := readNotices (noticesPerEvent * events.length) r.desk.notices
    .ok {
      results
      notices := Delivery.events read
      missed := Delivery.missedCount read
      jobs := r.desk.jobs
      stored := r.desk.messages.records }

/-- A job without its secret and its body. -/
def jobToJson (job : DecryptionJob) : Json.Value :=
  .object [("message_id", job.identity.message.toJson), ("thread_id", job.identity.thread.toJson),
    ("is_secure", .bool job.isSecure), ("is_key_exchange", .bool job.isKeyExchange)]

/-- A report as a record. -/
def toJson (r : Report) : Json.Value :=
  .object [("results", .array (r.results.map Ingested.toJson)),
    ("events", .array (r.notices.map Notice.toJson)), ("missed_events", .natural r.missed),
    ("decryptions", .array (r.jobs.map jobToJson)),
    ("stored", .array (r.stored.map StoredRecord.toJson))]

end Report

end SecureInbox
