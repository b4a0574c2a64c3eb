import SecureInbox.Message.Source
import SecureInbox.Part.Buffer

/-!
# Assembling an event

One receive event delivers some fragments and perhaps a tag. A single tagged
fragment is a message as it stands, of the kind the tag declares. Otherwise the
fragments are joined in order, and a special body is offered to the buffer of
parts; its kind is then sniffed.
-/

namespace SecureInbox

/-- What makes an event meaningless. -/
inductive Malformed
  | noFragments
  | unknownPushType (code : Int)
  deriving DecidableEq, Repr

/-- The wording of what is wrong with an event. -/
def Malformed.reason : Malformed → String
  | .noFragments => "no fragments"
  | .unknownPushType code => "unknown push type " ++ toString code

/-- What an event comes to. -/
inductive Assembled
  /-- A whole message, and where its kind is taken from. -/
  | ready (message : Message) (source : KindSource)
  /-- A part of a message; more are needed. -/
  | awaiting (identifier : UInt8) (received expected : Nat)
  deriving DecidableEq

/-- The message that several fragments make: the sender and the timestamp are
    those of the first one. -/
def Message.join (first : Fragment) (fragments : List Fragment) : Message :=
  Message.plain first.sender (String.ofList (fragments.flatMap fun f => f.body.toList))
    first.timestamp

/-- Joins the fragments of an event at a time of the clock. -/
def Buffer.assembleJoined (limits : Limits) (now : Nat) (m : Message) (buffer : Buffer) :
    Assembled × Buffer :=
  if Wire.isSpecial m.body then
    match buffer.offer limits now m with
    | (.complete whole, buffer) => (.ready whole .sniffed, buffer)
    | (.awaiting identifier received expected, buffer) =>
      (.awaiting identifier received expected, buffer)
  else (.ready m .sniffed, buffer)

/-- Takes in the fragments of an event at a time of the clock. -/
def Buffer.assemble (limits : Limits) (now : Nat) (fragments : List Fragment) (tag : Option Tag)
    (buffer : Buffer) : Except Malformed Assembled × Buffer :=
  match fragments, tag with
  | [], _ => (.error .noFragments, buffer)
  | [f], some tag => (.ok (.ready (Message.ofFragment f) (.tagged tag)), buffer)
  | f :: rest, _ =>
    let (assembled, buffer) :=
      buffer.assembleJoined limits now (Message.join f (f :: rest))
    (.ok assembled, buffer)

end SecureInbox
