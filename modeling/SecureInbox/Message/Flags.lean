/-!
# Diagnostic flags

What went wrong, or right, with the key material of a message is recorded on
it by flags. Flags are only ever added.
-/

namespace SecureInbox

/-- A mark left on a message while its key material was looked at. -/
inductive Flag
  | corrupted
  | invalidVersion
  | stale
  | processed
  deriving DecidableEq, Repr

/-- How a flag is called in records. -/
def Flag.label : Flag → String
  | .corrupted => "corrupted"
  | .invalidVersion => "invalid_version"
  | .stale => "stale"
  | .processed => "processed"

/-- Every flag, in the order of records. -/
def Flag.all : List Flag := [.corrupted, .invalidVersion, .stale, .processed]

/-- The flags of one message. -/
structure Flags where
  corrupted : Bool := false
  invalidVersion : Bool := false
  stale : Bool := false
  processed : Bool := false
  deriving DecidableEq, Repr

namespace Flags

/-- No flag at all. -/
def empty : Flags := {}

/-- One more flag. -/
def insert (flags : Flags) : Flag → Flags
  | .corrupted => { flags with corrupted := true }
  | .invalidVersion => { flags with invalidVersion := true }
  | .stale => { flags with stale := true }
  | .processed => { flags with processed := true }

/-- The flag is set. -/
def contains (flags : Flags) : Flag → Bool
  | .corrupted => flags.corrupted
  | .invalidVersion => flags.invalidVersion
  | .stale => flags.stale
  | .processed => flags.processed

/-- No flag is set. -/
def isEmpty (flags : Flags) : Bool := flags == empty

/-- The flags that are set, in the order of records. -/
def toList (flags : Flags) : List Flag := Flag.all.filter flags.contains

@[simp]
theorem contains_empty (f : Flag) : empty.contains f = false := by cases f <;> rfl

@[simp]
theorem contains_insert (flags : Flags) (f g : Flag) :
    (flags.insert f).contains g = (f == g || flags.contains g) := by
  cases f <;> cases g <;> rfl

end Flags

end SecureInbox
