import SecureInbox.Record.Message

/-!
# Records of events

The text of several events is an array of them, each an array of fragments. A
single event may also stand alone; the array is tried as one first.
-/

namespace SecureInbox

open Json (Value)

/-- Why a text holds no events. -/
inductive EventsError
  /-- It is no JSON, or holds what cannot be held. -/
  | malformed
  /-- It is JSON, but of no events. -/
  | unmatched
  deriving DecidableEq, Repr

/-- The wording of an error. -/
def EventsError.message : EventsError → String
  | .malformed => "malformed JSON"
  | .unmatched => "data did not match any variant of untagged enum FragmentInput"

/-- What is read from every item of an array. -/
def Json.Value.items? {α : Type} (read? : Value → Option α) : Value → Option (List α)
  | .array items => items.mapM read?
  | _ => none

/-- The events in a value. -/
def eventsOfJson? (v : Value) : Option (List (List Fragment)) :=
  match v.items? Fragment.ofJson? with
  | some fragments => some [fragments]
  | none => v.items? (Value.items? Fragment.ofJson?)

/-- The events in a text. What follows the value is looked at last. -/
def eventsOfText (text : List Char) : Except EventsError (List (List Fragment)) :=
  match Json.first? text with
  | none => .error .malformed
  | some (v, rest) =>
    if v.isHoldable Json.maxDepth then
      match eventsOfJson? v with
      | none => .error .unmatched
      | some events => if Json.isRest rest then .ok events else .error .malformed
    else .error .malformed

end SecureInbox
