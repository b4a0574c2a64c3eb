/-!
# JSON values

An object is the list of its members as they were written, repeated names
included, so that a reader can refuse a repetition.

Two kinds of number are told apart by how they are written: an integer in the
range of 64 bits, and any other number. Nothing here needs the value of the
second kind, so its text is kept.
-/

namespace SecureInbox.Json

/-- A JSON value. -/
inductive Value
  | null
  | bool (b : Bool)
  /-- A number written as an integer, at least `-2 ^ 63` and below `2 ^ 64`. -/
  | integer (n : Int)
  /-- Any other number, as it is written. -/
  | real (literal : String)
  | string (s : String)
  | array (items : List Value)
  | object (members : List (String × Value))
  /-- What has the form of a value and yet stands for none: a string with half
      of a surrogate pair, a number too large to be held, an object with such a
      string for a name. It may be skipped but not read. -/
  | garbled

namespace Value

/-- The number of characters, say. -/
def natural (n : Nat) : Value := .integer (Int.ofNat n)

mutual

/-- The value can be held as a whole: nothing in it is garbled, and arrays and
    objects are nested to a depth of at most `room`. -/
def isHoldable (room : Nat) : Value → Bool
  | .garbled => false
  | .array items => decide (0 < room) && areHoldable (room - 1) items
  | .object members => decide (0 < room) && membersHoldable (room - 1) members
  | _ => true

/-- Every item can be held. -/
def areHoldable (room : Nat) : List Value → Bool
  | [] => true
  | v :: rest => v.isHoldable room && areHoldable room rest

/-- Every value of a member can be held. -/
def membersHoldable (room : Nat) : List (String × Value) → Bool
  | [] => true
  | (_, v) :: rest => v.isHoldable room && membersHoldable room rest

end

end Value

end SecureInbox.Json
