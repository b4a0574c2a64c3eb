import SecureInbox.Duration.Basic
import SecureInbox.Part.Basic

/-!
# Joining parts

Parts of a split message arrive in separate events and in any order. Those of
one sender and identifier are collected in a *partial* until all of them are
there; then they leave the buffer as one whole message (`Buffer.offer`).

* A body that is no part passes through, and so does a part that cannot be
  read, marked as corrupted.
* A part that disagrees with its partial on the lead, the version byte or the
  number of parts starts the partial over.
* A later copy of a part replaces the earlier one. The message takes its
  timestamp from the part with index 0.
* A partial that has reached its limit of age is dropped when the next part
  comes, and the one opened first is dropped when a new one finds no room.
-/

namespace SecureInbox

/-- The limits on partially received messages. -/
structure Limits where
  /-- How long a partial waits for the parts that are missing. -/
  expiry : Duration := .tenMinutes
  /-- How many partials are kept; there is room for one even when this is
      zero. -/
  maxPending : Nat := 64
  deriving DecidableEq

/-- The partials there is room for. -/
def Limits.room (limits : Limits) : Nat := max 1 limits.maxPending

/-- The parts of one split message received so far. -/
structure Partial where
  sender : String
  identifier : UInt8
  lead : String
  version : UInt8
  /-- A slot for every part, filled when it has come. -/
  slots : List (Option Bytes)
  timestamp : UInt64
  /-- When the partial was opened, in nanoseconds on the clock of the buffer. -/
  opened : Nat
  deriving DecidableEq

namespace Partial

/-- The empty partial that a part opens. -/
def openFor (m : Message) (p : Part) (now : Nat) : Partial where
  sender := m.sender
  identifier := p.identifier
  lead := p.lead
  version := p.version
  slots := List.replicate p.count.toNat none
  timestamp := m.timestamp
  opened := now

/-- The partial collects the parts of this sender and identifier. -/
def isFor (q : Partial) (sender : String) (identifier : UInt8) : Bool :=
  q.sender == sender && q.identifier == identifier

/-- The part agrees with the partial. -/
def accepts (q : Partial) (p : Part) : Bool :=
  q.slots.length == p.count.toNat && q.lead == p.lead && q.version == p.version

/-- The partial is younger than its limit of age. -/
def isAlive (q : Partial) (limits : Limits) (now : Nat) : Bool :=
  now - q.opened < limits.expiry.nanoseconds

/-- The partial with a part put into its slot. -/
def fill (q : Partial) (m : Message) (p : Part) : Partial :=
  { q with
    slots := q.slots.set p.index.toNat (some p.chunk)
    timestamp := if p.index = 0 then m.timestamp else q.timestamp }

/-- How many parts have come. -/
def received (q : Partial) : Nat := q.slots.countP (·.isSome)

/-- Every part has come. -/
def isComplete (q : Partial) : Bool := q.slots.all (·.isSome)

/-- The payload: the version byte and the chunks in order. -/
def payload (q : Partial) : Bytes := q.version :: (q.slots.filterMap id).flatten

/-- The whole message. It is plain and without flags until it is classified. -/
def toMessage (q : Partial) : Message :=
  Message.plain q.sender (Wire.encodeBody (Wire.kindOfLead q.lead) q.payload) q.timestamp

end Partial

/-- The answer to a message offered to the buffer. -/
inductive Release
  /-- A whole message. -/
  | complete (message : Message)
  /-- The message was a part, and more are needed. -/
  | awaiting (identifier : UInt8) (received expected : Nat)
  deriving DecidableEq

/-- The partials of all senders. -/
abbrev Buffer := List Partial

namespace Buffer

/-- The buffer without the partial that was opened earliest. Of several it is the first, but
    it might be any of them. -/
def dropOldest (buffer : Buffer) : Buffer :=
  buffer.eraseP fun q => buffer.all fun other => decide (q.opened ≤ other.opened)

/-- The buffer after dropping the oldest partial `n` times. -/
def dropOldestTimes : Nat → Buffer → Buffer
  | 0, buffer => buffer
  | n + 1, buffer => dropOldestTimes n buffer.dropOldest

/-- The buffer with room for one more partial. -/
def makeRoom (limits : Limits) (buffer : Buffer) : Buffer :=
  buffer.dropOldestTimes (buffer.length + 1 - limits.room)

/-- The partials that are still young enough. -/
def expire (limits : Limits) (now : Nat) (buffer : Buffer) : Buffer :=
  buffer.filter (·.isAlive limits now)

/-- The partial collecting for a sender and an identifier. -/
def find? (buffer : Buffer) (sender : String) (identifier : UInt8) : Option Partial :=
  List.find? (·.isFor sender identifier) buffer

/-- The partials collecting for anyone else. -/
def others (buffer : Buffer) (sender : String) (identifier : UInt8) : Buffer :=
  buffer.filter fun q => !q.isFor sender identifier

/-- The partial a part goes into, and the rest of the buffer. It is the one
    for its sender and identifier if they agree; otherwise one is opened, after
    making room for it. -/
def place (limits : Limits) (now : Nat) (m : Message) (p : Part) (buffer : Buffer) :
    Partial × Buffer :=
  let rest := buffer.others m.sender p.identifier
  match (buffer.find? m.sender p.identifier).filter (·.accepts p) with
  | some q => (q, rest)
  | none => (Partial.openFor m p now, rest.makeRoom limits)

/-- Takes in one of several parts. -/
def collect (limits : Limits) (now : Nat) (m : Message) (p : Part) (buffer : Buffer) :
    Release × Buffer :=
  let (q, rest) := (buffer.expire limits now).place limits now m p
  let q := q.fill m p
  if q.isComplete then (.complete q.toMessage, rest)
  else (.awaiting q.identifier q.received q.slots.length, rest ++ [q])

/-- Takes in a message at a time of the clock. A lone part is whole already. -/
def offer (limits : Limits) (now : Nat) (m : Message) (buffer : Buffer) : Release × Buffer :=
  match Part.parse m.body with
  | .error .notAPart => (.complete m, buffer)
  | .error _ => (.complete (m.withFlag .corrupted), buffer)
  | .ok p =>
    if p.count = 1 then
      let body := Wire.encodeBody (Wire.kindOfLead p.lead) (p.version :: p.chunk)
      (.complete (Message.plain m.sender body m.timestamp), buffer)
    else buffer.collect limits now m p

end Buffer

end SecureInbox
