import SecureInbox.Intake.Outcome
import SecureInbox.Record.Message

/-!
# Records of outcomes

The JSON forms of identities, paths, outcomes and the report on one event. The
report is tagged by its `status` and is held as a whole before the rest of it is
read.
-/

namespace SecureInbox

open Json (Value Reading)

/-- The number of a message as a record. -/
def MessageId.toJson (id : MessageId) : Value := .natural id.val

/-- The number of a message in a record. -/
def MessageId.ofJson? (v : Value) : Option MessageId := v.natural?.map MessageId.mk

/-- The number of a thread as a record. -/
def ThreadId.toJson (id : ThreadId) : Value := .natural id.val

/-- The number of a thread in a record. -/
def ThreadId.ofJson? (v : Value) : Option ThreadId := v.natural?.map ThreadId.mk

/-- An identity as a record. -/
def StoredIdentity.toJson (i : StoredIdentity) : Value :=
  .object [("message_id", i.message.toJson), ("thread_id", i.thread.toJson)]

/-- The identity in a record. -/
def StoredIdentity.ofJson? (v : Value) : Option StoredIdentity :=
  match v.fields? ["message_id", "thread_id"] 2 with
  | some [some message, some thread] => do
    return ⟨← MessageId.ofJson? message, ← ThreadId.ofJson? thread⟩
  | _ => none

/-- How the origin of a secret is called in records. -/
def SecretOrigin.label : SecretOrigin → String
  | .live => "live"
  | .asymmetric => "asymmetric"

/-- Every origin by its name in records. -/
def SecretOrigin.choices : List (String × SecretOrigin) :=
  [.live, .asymmetric].map fun o => (o.label, o)

/-- An origin as a record. -/
def SecretOrigin.toJson (o : SecretOrigin) : Value := .string o.label

/-- The origin in a record. -/
def SecretOrigin.ofJson? (reading : Reading) (v : Value) : Option SecretOrigin :=
  v.choice? reading choices

/-- A path as a record. -/
def StoragePath.toJson : StoragePath → Value
  | .plaintext => .string "plaintext"
  | .secure => .string "secure"
  | .encrypted origin => .object [("encrypted", .object [("origin", origin.toJson)])]

/-- The path in a record. -/
def StoragePath.ofJson? (reading : Reading) (v : Value) : Option StoragePath :=
  match v.alternative? with
  | some ("encrypted", some content) =>
    match content.fields? ["origin"] 1 with
    | some [some origin] => (SecretOrigin.ofJson? reading origin).map .encrypted
    | _ => none
  | _ => v.choice? reading [("plaintext", .plaintext), ("secure", .secure)]

/-- A degraded state as a record. -/
def Degraded.toJson : Degraded → Value
  | .sessionCommitFailed error =>
    .object [("state", .string "session_commit_failed"), ("error", .string error)]

/-- The degraded state in a record. -/
def Degraded.ofJson? (reading : Reading) (v : Value) : Option Degraded := do
  let (tag, rest) ← v.tagged? "state"
  let () ← tag.tagOf? reading [("session_commit_failed", ())]
  match rest.fields? ["error"] 1 with
  | some [some error] => return .sessionCommitFailed (← error.string?)
  | _ => none

/-- The fields of an outcome. -/
def Outcome.fieldNames : List String := ["identity", "kind", "path", "flags", "degraded"]

/-- The members of an outcome. One that is not degraded does not say so. -/
def Outcome.members (o : Outcome) : List (String × Value) :=
  [("identity", o.identity.toJson), ("kind", o.kind.toJson), ("path", o.path.toJson),
    ("flags", o.flags.toJson)] ++
  match o.degraded with
  | some state => [("degraded", state.toJson)]
  | none => []

/-- An outcome as a record. -/
def Outcome.toJson (o : Outcome) : Value := .object o.members

/-- The outcome in a record. -/
def Outcome.ofJson? (reading : Reading) (v : Value) : Option Outcome :=
  match v.fields? fieldNames 4 with
  | some [some identity, some kind, some path, some flags, degraded] => do
    return { identity := ← StoredIdentity.ofJson? identity
             kind := ← Kind.ofJson? reading kind
             path := ← StoragePath.ofJson? reading path
             flags := ← Flags.ofJson? flags
             degraded := ← (degraded.getD .null).optional? (Degraded.ofJson? reading) }
  | _ => none

/-- A report as a record. -/
def Ingested.toJson : Ingested → Value
  | .stored outcome => .object (("status", .string "stored") :: outcome.members)
  | .awaitingParts identifier received expected =>
    .object [("status", .string "awaiting_parts"), ("identifier", .natural identifier.toNat),
      ("received", .natural received), ("expected", .natural expected)]

/-- The report on missing parts in the rest of a record. -/
def Ingested.awaitingOfJson? (v : Value) : Option Ingested :=
  match v.fields? ["identifier", "received", "expected"] 3 with
  | some [some identifier, some received, some expected] => do
    return .awaitingParts (UInt8.ofNat (← identifier.naturalBelow? 256)) (← received.natural?)
      (← expected.natural?)
  | _ => none

/-- The report in a record. -/
def Ingested.ofJson? (v : Value) : Option Ingested := do
  let (tag, rest) ← v.tagged? "status"
  if ← tag.tagOf? .direct [("stored", true), ("awaiting_parts", false)] then
    return .stored (← Outcome.ofJson? .held rest)
  else awaitingOfJson? rest

instance : Json.Record MessageId where
  toJson := MessageId.toJson
  ofJson? := MessageId.ofJson?

instance : Json.Record ThreadId where
  toJson := ThreadId.toJson
  ofJson? := ThreadId.ofJson?

instance : Json.Record StoredIdentity where
  toJson := StoredIdentity.toJson
  ofJson? := StoredIdentity.ofJson?

instance : Json.Record SecretOrigin where
  toJson := SecretOrigin.toJson
  ofJson? := SecretOrigin.ofJson? .direct

instance : Json.Record StoragePath where
  toJson := StoragePath.toJson
  ofJson? := StoragePath.ofJson? .direct

instance : Json.Record Degraded where
  toJson := Degraded.toJson
  ofJson? := Degraded.ofJson? .direct
  isHoldable := Value.isHoldable Json.maxDepth

instance : Json.Record Outcome where
  toJson := Outcome.toJson
  ofJson? := Outcome.ofJson? .direct
  isHoldable := Value.isFieldHoldable Outcome.fieldNames 4 4

instance : Json.Record Ingested where
  toJson := Ingested.toJson
  ofJson? := Ingested.ofJson?
  isHoldable := Value.isHoldable Json.maxDepth

end SecureInbox
