import SecureInbox.Wire

/-!
# Parts

A payload that does not fit one message is sent in up to fifteen *parts*. Each
is a special body with an envelope: the version byte of the payload, the index
of the part and the number of parts in one byte, an identifier chosen by the
sender, and a chunk of the data.

* `Part.parse` reads a part off a body, `Part.encode` writes it.
* `Part.splitBody` cuts a special body into parts.
-/

namespace SecureInbox

/-- One part of a split message. -/
structure Part where
  /-- The lead of the body. -/
  lead : String
  /-- The version byte of the whole payload. -/
  version : UInt8
  index : UInt8
  /-- How many parts there are. -/
  count : UInt8
  /-- Which of the sender's split messages this belongs to. -/
  identifier : UInt8
  chunk : Bytes
  deriving DecidableEq, Repr

/-- Why there is no part, or why a body cannot be split. -/
inductive PartError
  | notSpecial
  | notAPart
  | undecodable (cause : Base64.Error)
  | truncated (length : Nat)
  | invalidHeader (index count : UInt8)
  | tooManyParts (count : Nat)
  | zeroChunk
  deriving DecidableEq, Repr

/-- The wording of an error. -/
def PartError.message : PartError → String
  | .notSpecial => "Not a special message"
  | .notAPart => "Not a multipart part"
  | .undecodable cause => "Undecodable transport payload: " ++ cause.message
  | .truncated n => "Envelope truncated: " ++ toString n ++ " bytes"
  | .invalidHeader index count =>
    "Invalid part header: index " ++ toString index.toNat ++ " of " ++ toString count.toNat
  | .tooManyParts n => "Payload needs " ++ toString n ++ " parts, maximum is 15"
  | .zeroChunk => "Chunk size must be non-zero"

namespace Part

/-- The most parts a message may be split into. -/
def maxParts : Nat := 15

/-- The part in an envelope that came under a lead. Its index has to be below
    the number of parts. -/
def ofEnvelope (lead : String) : Bytes → Except PartError Part
  | version :: header :: identifier :: chunk =>
    let index := header / 16
    let count := header % 16
    if count = 0 ∨ count ≤ index then .error (.invalidHeader index count)
    else .ok { lead, version, index, count, identifier, chunk }
  | short => .error (.truncated short.length)

/-- The part a body is. -/
def parse (body : String) : Except PartError Part :=
  match Wire.splitPart? body with
  | none => .error .notAPart
  | some (_, lead, text) =>
    match Wire.decodePart text with
    | .error cause => .error (.undecodable cause)
    | .ok envelope => ofEnvelope lead envelope

/-- The envelope of a part. Index and number of parts keep their low halves
    only. -/
def envelope (p : Part) : Bytes :=
  p.version :: (p.index * 16 + p.count % 16) :: p.identifier :: p.chunk

/-- The body a part is sent as. -/
def encode (p : Part) : String := Wire.encodePart (Wire.kindOfLead p.lead) p.envelope

/-- How many chunks of a size some data makes: one at least, even of no data. -/
def chunkCount (size length : Nat) : Nat := max 1 ((length + size - 1) / size)

/-- The parts of a payload, each with at most `size` bytes of the data. -/
def ofData (lead : String) (version identifier : UInt8) (size : Nat) (data : Bytes) : List Part :=
  let count := chunkCount size data.length
  (List.range count).map fun i =>
    { lead, version, identifier
      index := UInt8.ofNat i
      count := UInt8.ofNat count
      chunk := (data.drop (i * size)).take size }

/-- A special body cut into parts of at most `size` bytes of data each. -/
def splitBody (body : String) (identifier : UInt8) (size : Nat) :
    Except PartError (List String) :=
  if size = 0 then .error .zeroChunk
  else
    match Wire.matchLead? body with
    | none => .error .notSpecial
    | some (_, lead) =>
      match Wire.decodePayload body with
      | .error cause => .error (.undecodable cause)
      | .ok [] => .error (.truncated 0)
      | .ok (version :: data) =>
        if maxParts < chunkCount size data.length then
          .error (.tooManyParts (chunkCount size data.length))
        else .ok ((ofData lead version identifier size data).map encode)

end Part

end SecureInbox
