import SecureInbox.Json.Parser
import SecureInbox.Json.Printer

/-!
# Reading records

How records and alternatives are found in a JSON value.

* A record is an object with a member for every field, in any order, or an
  array of the fields in order. Members with other names are skipped, and a
  field that is there twice is refused.
* An alternative without content is written as its name, and one with content
  as an object with the name as its only member.
* A tagged record carries the name of its alternative under a name of its own,
  among the fields or, in an array, before them.

Reading is a little more lenient about a value that is held as a whole before
it is read, such as the rest of a tagged record, than about one that is read
directly.
-/

namespace SecureInbox.Json

/-- Whether a value is read as it comes or was held as a whole before. -/
inductive Reading
  | direct
  | held
  deriving DecidableEq, Repr

/-- The value of the member with a name, or none if no member has it. Two such
    members are refused. -/
def member? (name : String) (members : List (String × Value)) : Option (Option Value) :=
  match members.filter fun m => m.1 == name with
  | [] => some none
  | [(_, v)] => some (some v)
  | _ => none

namespace Value

/-- The text of a string. -/
def string? : Value → Option String
  | .string s => some s
  | _ => none

/-- The truth value of a literal. -/
def bool? : Value → Option Bool
  | .bool b => some b
  | _ => none

/-- The natural number written as an integer. -/
def natural? : Value → Option Nat
  | .integer (.ofNat n) => some n
  | _ => none

/-- The natural number below a bound. -/
def naturalBelow? (bound : Nat) (v : Value) : Option Nat := v.natural?.filter (· < bound)

/-- The value, unless it is null. -/
def unlessNull? : Value → Option Value
  | .null => none
  | v => some v

/-- What is read from a value, or nothing from null. -/
def optional? {α : Type} (read? : Value → Option α) : Value → Option (Option α)
  | .null => some none
  | v => (read? v).map some

/-- The fields of a record in the order of their names. An object may lack any
    of them, an array only those after the `least` first. -/
def fields? (names : List String) (least : Nat) : Value → Option (List (Option Value))
  | .object members => names.mapM fun name => member? name members
  | .array items =>
    if least ≤ items.length ∧ items.length ≤ names.length then
      some (items.map some ++ List.replicate (names.length - items.length) none)
    else none
  | _ => none

/-- The name of an alternative, with its content if it has some. -/
def alternative? : Value → Option (String × Option Value)
  | .string name => some (name, none)
  | .object [(name, content)] => some (name, some content)
  | _ => none

/-- There is no content, or a content that counts as none. -/
def isNoContent (reading : Reading) : Option Value → Bool
  | none => true
  | some .null => true
  | some (.object []) => reading == .held
  | _ => false

/-- The one of several alternatives without content that a value names. -/
def choice? {α : Type} (reading : Reading) (choices : List (String × α)) (v : Value) : Option α :=
  match v.alternative? with
  | some (name, content) => if isNoContent reading content then choices.lookup name else none
  | none => none

/-- The tag of a tagged record and the rest of the record. -/
def tagged? (tag : String) : Value → Option (Value × Value)
  | .object members =>
    match member? tag members with
    | some (some v) => some (v, .object (members.filter fun m => m.1 != tag))
    | _ => none
  | .array (v :: rest) => some (v, .array rest)
  | _ => none

/-- The one of several alternatives that a tag names. A tag that was held may
    also give its position. -/
def tagOf? {α : Type} (reading : Reading) (choices : List (String × α)) : Value → Option α
  | .string name => choices.lookup name
  | .integer (.ofNat n) => if reading = .held then choices[n]?.map (·.2) else none
  | _ => none

/-- Nothing is left of a record without fields. -/
def isBare : Value → Bool
  | .object _ => true
  | .array items => items.isEmpty
  | _ => false

end Value

/-- A type of records with a JSON form. -/
class Record (α : Type) where
  toJson : α → Value
  ofJson? : Value → Option α
  /-- The parts of a value that are held as a whole when it is read from a text
      can be held. -/
  isHoldable : Value → Bool := fun _ => true

namespace Record

variable {α : Type} [Record α]

/-- The record that is the whole of a text. -/
def ofText? (text : List Char) : Option α :=
  match parse? text with
  | some v => if isHoldable α v then ofJson? v else none
  | none => none

/-- The text of a record in one line. -/
def toText (a : α) : List Char := (toJson a).render

end Record

/-- How deep arrays and objects may be nested in a value that is held. -/
def maxDepth : Nat := 127

/-- The field with a position can be held, inside a record that is read
    directly. -/
def Value.isFieldHoldable (names : List String) (least : Nat) (position : Nat) (v : Value) : Bool :=
  match v.fields? names least with
  | some fields => ((fields[position]?).join.map (·.isHoldable (maxDepth - 1))).getD true
  | none => true

end SecureInbox.Json
