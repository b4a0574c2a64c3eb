import SecureInbox.Intake.Desk
import SecureInbox.Mailbox.Memory
import SecureInbox.Record.Outcome

/-!
# Records of the mailbox

The JSON forms of stored messages and of notifications. Inboxes are tagged by
`inbox` and notifications by `event`.
-/

namespace SecureInbox

open Json (Value)

/-- An inbox as a record. -/
def Inbox.toJson : Inbox → Value
  | .plaintext => .object [("inbox", .string "plaintext")]
  | .encrypted secret =>
    .object [("inbox", .string "encrypted"), ("secret", (secret.map Value.string).getD .null)]

/-- The inbox in a record. The secret of an encrypted one may be left out. -/
def Inbox.ofJson? (v : Value) : Option Inbox := do
  let (tag, rest) ← v.tagged? "inbox"
  if ← tag.tagOf? .direct [("plaintext", true), ("encrypted", false)] then
    if rest.isBare then some .plaintext else none
  else
    match rest.fields? ["secret"] 1 with
    | some [secret] => return .encrypted (← (secret.getD .null).optional? Value.string?)
    | _ => none

/-- The fields of a stored message. -/
def StoredRecord.fieldNames : List String :=
  ["identity", "sender", "body", "timestamp", "kind", "flags", "inbox"]

/-- A stored message as a record. -/
def StoredRecord.toJson (r : StoredRecord) : Value :=
  .object [("identity", r.identity.toJson), ("sender", .string r.sender), ("body", .string r.body),
    ("timestamp", .natural r.timestamp.toNat), ("kind", r.kind.toJson), ("flags", r.flags.toJson),
    ("inbox", r.inbox.toJson)]

/-- The stored message in a record. -/
def StoredRecord.ofJson? (v : Value) : Option StoredRecord :=
  match v.fields? fieldNames 7 with
  | some [some identity, some sender, some body, some timestamp, some kind, some flags,
      some inbox] => do
    return { identity := ← StoredIdentity.ofJson? identity
             sender := ← sender.string?
             body := ← body.string?
             timestamp := ← timestampOfJson? timestamp
             kind := ← Kind.ofJson? .direct kind
             flags := ← Flags.ofJson? flags
             inbox := ← Inbox.ofJson? inbox }
  | _ => none

/-- A notification as a record. -/
def Notice.toJson : Notice → Value
  | .messageReceived thread unlocked =>
    .object [("event", .string "message_received"), ("thread", thread.toJson),
      ("unlocked", .bool unlocked)]
  | .securityUpdated thread =>
    .object [("event", .string "security_updated"), ("thread", thread.toJson)]

/-- The notification in a record. -/
def Notice.ofJson? (v : Value) : Option Notice := do
  let (tag, rest) ← v.tagged? "event"
  if ← tag.tagOf? .direct [("message_received", true), ("security_updated", false)] then
    match rest.fields? ["thread", "unlocked"] 2 with
    | some [some thread, some unlocked] =>
      return .messageReceived (← ThreadId.ofJson? thread) (← unlocked.bool?)
    | _ => none
  else
    match rest.fields? ["thread"] 1 with
    | some [some thread] => return .securityUpdated (← ThreadId.ofJson? thread)
    | _ => none

instance : Json.Record Inbox where
  toJson := Inbox.toJson
  ofJson? := Inbox.ofJson?
  isHoldable := Value.isHoldable Json.maxDepth

instance : Json.Record StoredRecord where
  toJson := StoredRecord.toJson
  ofJson? := StoredRecord.ofJson?
  isHoldable := Value.isFieldHoldable StoredRecord.fieldNames 7 6

instance : Json.Record Notice where
  toJson := Notice.toJson
  ofJson? := Notice.ofJson?
  isHoldable := Value.isHoldable Json.maxDepth

end SecureInbox
