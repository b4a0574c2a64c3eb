import SecureInbox.Json.Reader
import SecureInbox.Message.Basic

/-!
# Records of messages

The JSON forms of fragments, kinds, tags and flags.
-/

namespace SecureInbox

open Json (Value Reading)

/-- The fields of a fragment. -/
def Fragment.fieldNames : List String := ["sender", "body", "timestamp"]

/-- A timestamp of 64 bits. -/
def timestampOfJson? (v : Value) : Option UInt64 :=
  (v.naturalBelow? 18446744073709551616).map UInt64.ofNat

/-- A fragment as a record. -/
def Fragment.toJson (f : Fragment) : Value :=
  .object [("sender", .string f.sender), ("body", .string f.body),
    ("timestamp", .natural f.timestamp.toNat)]

/-- The fragment in a record. -/
def Fragment.ofJson? (v : Value) : Option Fragment :=
  match v.fields? fieldNames 3 with
  | some [some sender, some body, some timestamp] => do
    return ⟨← sender.string?, ← body.string?, ← timestampOfJson? timestamp⟩
  | _ => none

/-- Every kind by its name in records. -/
def Kind.choices : List (String × Kind) :=
  [.plain, .secureCiphertext, .keyExchange, .preKeyBundle].map fun k => (k.label, k)

/-- A kind as a record. -/
def Kind.toJson (k : Kind) : Value := .string k.label

/-- The kind in a record. -/
def Kind.ofJson? (reading : Reading) (v : Value) : Option Kind := v.choice? reading choices

/-- Every tag by its name in records. -/
def Tag.choices : List (String × Tag) :=
  [.ciphertext, .keyExchange, .preKeyBundle, .plaintext].map fun t => (t.label, t)

/-- A tag as a record. -/
def Tag.toJson (t : Tag) : Value := .string t.label

/-- The tag in a record. -/
def Tag.ofJson? (v : Value) : Option Tag := v.choice? .direct choices

/-- Flags as a record. -/
def Flags.toJson (f : Flags) : Value :=
  .object (Flag.all.map fun flag => (flag.label, .bool (f.contains flag)))

/-- The flags in a record. -/
def Flags.ofJson? (v : Value) : Option Flags :=
  match v.fields? (Flag.all.map Flag.label) 4 with
  | some [some corrupted, some invalidVersion, some stale, some processed] => do
    return { corrupted := ← corrupted.bool?
             invalidVersion := ← invalidVersion.bool?
             stale := ← stale.bool?
             processed := ← processed.bool? }
  | _ => none

instance : Json.Record Fragment where
  toJson := Fragment.toJson
  ofJson? := Fragment.ofJson?

instance : Json.Record Kind where
  toJson := Kind.toJson
  ofJson? := Kind.ofJson? .direct

instance : Json.Record Tag where
  toJson := Tag.toJson
  ofJson? := Tag.ofJson?

instance : Json.Record Flags where
  toJson := Flags.toJson
  ofJson? := Flags.ofJson?

end SecureInbox
