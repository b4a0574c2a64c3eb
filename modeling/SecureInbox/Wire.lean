import SecureInbox.Message.Basic
import SecureInbox.Text.Base64
import SecureInbox.Text.Blank

/-!
# The wire format

A *special* body is a *lead*, which tells its kind, followed by the payload in
base64. The lead of a bundle begins with that of a key exchange, so leads are
tried in a fixed order, the longer one first. Plain bodies have no lead.

A part of a split message has a marker between the lead and the base64 of its
*envelope*. The marker is no base64 symbol, so no whole message reads as a
part.

The first byte of every payload holds two versions: that of the message in its
high half and the highest one its sender knows in its low half.
-/

namespace SecureInbox.Wire

/-- The lead of a prekey bundle. -/
def bundleLead : String := "?TSKP:"

/-- The lead of a key exchange. -/
def exchangeLead : String := "?TSK"

/-- The lead of ciphertext. -/
def cipherLead : String := "?TSM"

/-- The leads and their kinds; earlier ones win. -/
def leads : List (Kind × String) :=
  [(.preKeyBundle, bundleLead), (.keyExchange, exchangeLead), (.secureCiphertext, cipherLead)]

/-- What stands between the lead and the envelope of a part. -/
def partMarker : Char := '#'

/-- The first lead a body begins with. -/
def matchLead? (body : String) : Option (Kind × String) :=
  leads.find? fun lead => lead.2.toList.isPrefixOf body.toList

/-- The body begins with a lead. -/
def isSpecial (body : String) : Bool := (matchLead? body).isSome

/-- The lead for messages of a kind. -/
def leadOf? (kind : Kind) : Option String :=
  (leads.find? fun lead => lead.1 == kind).map (·.2)

/-- The kind that a lead stands for; any other text counts as ciphertext. -/
def kindOfLead (lead : String) : Kind :=
  ((matchLead? lead).map (·.1)).getD .secureCiphertext

/-- The body that carries a payload. -/
def encodeBody (kind : Kind) (payload : Bytes) : String :=
  String.ofList (((leadOf? kind).getD "").toList ++ Base64.encode payload)

/-- The text of a body after its lead; all of it when there is none. -/
def afterLead (body : String) : List Char :=
  match matchLead? body with
  | some (_, lead) => body.toList.drop lead.toList.length
  | none => body.toList

/-- The payload of a body. Bodies of push transports come without a lead and
    are decoded whole. -/
def decodePayload (body : String) : Except Base64.Error Bytes :=
  Base64.decode (Text.trimEnd (afterLead body))

/-- The kind, the lead and the envelope text of a part. -/
def splitPart? (body : String) : Option (Kind × String × List Char) :=
  match matchLead? body, afterLead body with
  | some (kind, lead), c :: envelope => if c = partMarker then some (kind, lead, envelope) else none
  | _, _ => none

/-- The part that carries an envelope. A plain part is written as ciphertext. -/
def encodePart (kind : Kind) (envelope : Bytes) : String :=
  String.ofList (((leadOf? kind).getD cipherLead).toList ++ partMarker :: Base64.encode envelope)

/-- The bytes of an envelope text. -/
def decodePart (envelope : List Char) : Except Base64.Error Bytes :=
  Base64.decode (Text.trimEnd envelope)

/-- The highest message version understood. -/
def currentVersion : UInt8 := 2

/-- The lowest message version accepted. -/
def minVersion : UInt8 := 1

/-- A message version packed with the highest one understood. -/
def versionByte (version : UInt8) : UInt8 := version * 16 + currentVersion

/-- The message version in a version byte. -/
def messageVersion (b : UInt8) : UInt8 := b / 16

/-- The version can be read. -/
def isSupported (version : UInt8) : Bool := minVersion ≤ version && version ≤ currentVersion

end SecureInbox.Wire
