import SecureInbox.Record.Message
import SecureInbox.Trust

/-!
# Records of verdicts

The JSON forms of verdicts and of the reasons for a rejection.
-/

namespace SecureInbox

open Json (Value)

/-- Every reason by its name in records. -/
def Rejection.choices : List (String × Rejection) :=
  [.corrupted, .unsupportedVersion, .stalePreKey, .untrusted, .sessionUnavailable].map fun r =>
    (r.label, r)

/-- A reason as a record. -/
def Rejection.toJson (r : Rejection) : Value := .string r.label

/-- The reason in a record. -/
def Rejection.ofJson? (v : Value) : Option Rejection := v.choice? .direct choices

/-- A verdict as a record. -/
def Verdict.toJson : Verdict → Value
  | .trusted => .string "trusted"
  | .stale => .string "stale"
  | .invalid reason => .object [("invalid", reason.toJson)]

/-- The verdict in a record. -/
def Verdict.ofJson? (v : Value) : Option Verdict :=
  match v.alternative? with
  | some ("invalid", some reason) => (Rejection.ofJson? reason).map .invalid
  | _ => v.choice? .direct [("trusted", .trusted), ("stale", .stale)]

instance : Json.Record Rejection where
  toJson := Rejection.toJson
  ofJson? := Rejection.ofJson?

instance : Json.Record Verdict where
  toJson := Verdict.toJson
  ofJson? := Verdict.ofJson?

end SecureInbox
