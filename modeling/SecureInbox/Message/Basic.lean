import SecureInbox.Message.Flags
import SecureInbox.Message.Kind

/-!
# Messages

A transport delivers *fragments*: a sender, some text and the time of receipt.
One or more of them make a *message*, which starts out plain and without
flags; classification settles its kind, and the handling of its key material
adds flags or replaces the body.
-/

namespace SecureInbox

/-- One chunk of text as the transport delivered it. -/
structure Fragment where
  /-- Where it came from: a number or a push identifier. -/
  sender : String
  body : String
  /-- The time of receipt, in milliseconds since the epoch. -/
  timestamp : UInt64
  deriving DecidableEq, Repr

/-- A whole message on its way into the store. -/
structure Message where
  sender : String
  body : String
  timestamp : UInt64
  kind : Kind := .plain
  flags : Flags := .empty
  deriving DecidableEq, Repr

namespace Message

/-- A plain message without flags. -/
def plain (sender body : String) (timestamp : UInt64) : Message := { sender, body, timestamp }

/-- The message of a single fragment. -/
def ofFragment (f : Fragment) : Message := plain f.sender f.body f.timestamp

/-- The message as one of another kind. -/
def withKind (m : Message) (kind : Kind) : Message := { m with kind }

/-- The message with one more flag. -/
def withFlag (m : Message) (flag : Flag) : Message := { m with flags := m.flags.insert flag }

/-- The message with one more flag, if there is one to add. -/
def withFlag? (m : Message) : Option Flag → Message
  | some flag => m.withFlag flag
  | none => m

/-- The message with another body, of another kind. -/
def withBody (m : Message) (body : String) (kind : Kind) : Message := { m with body, kind }

end Message

end SecureInbox
