import SecureInbox.Config.Basic
import SecureInbox.Duration.Parser
import SecureInbox.Toml.Parser

/-!
# Reading the configuration

The configuration is a TOML document with the sections `receiver`, `multipart`
and `logging`. What is missing keeps its default and what is unknown is skipped.
Sections and choices are read in the order of the document, and the first fault
is reported; a text that is no document is refused before that.
-/

namespace SecureInbox

open Toml (Item)

/-- What is wrong with the text of a configuration. -/
inductive ConfigError
  /-- It is no document, or a choice has a value of the wrong type. -/
  | malformed
  | invalidDuration (text : String) (cause : Duration.Error)
  deriving DecidableEq, Repr

/-- The wording of an error. -/
def ConfigError.message : ConfigError → String
  | .malformed => "malformed configuration"
  | .invalidDuration text cause => "Invalid duration '" ++ text ++ "': " ++ cause.message

namespace Config

/-- A way to read a choice into a configuration. -/
abbrev Choice := Item → Config → Except ConfigError Config

/-- Whether key exchanges are answered. -/
def readAutoRespond : Choice
  | .boolean b, c => .ok { c with autoRespond := b }
  | _, _ => .error .malformed

/-- How long partial messages are kept. -/
def readExpiry : Choice
  | .string s, c =>
    match Duration.parse s.toList with
    | .ok expiry => .ok { c with limits := { c.limits with expiry } }
    | .error cause => .error (.invalidDuration s cause)
  | _, _ => .error .malformed

/-- How many partial messages are kept. -/
def readMaxPending : Choice
  | .integer (.ofNat n), c => .ok { c with limits := { c.limits with maxPending := n } }
  | _, _ => .error .malformed

/-- The filter of the log. -/
def readLevel : Choice
  | .string s, c => .ok { c with level := s }
  | _, _ => .error .malformed

/-- The file of the log. -/
def readFile : Choice
  | .string s, c => .ok { c with file := some s }
  | _, _ => .error .malformed

/-- Reads the choices of a section by their names. -/
def readNamed (choices : List (String × Choice)) (members : Toml.Members) (c : Config) :
    Except ConfigError Config :=
  members.foldlM (fun c m =>
    match choices.lookup m.1 with
    | some read => read m.2 c
    | none => .ok c) c

/-- Reads the choices of a section that is a list of them. -/
def readListed (choices : List (String × Choice)) (items : List Item) (c : Config) :
    Except ConfigError Config :=
  (choices.zip items).foldlM (fun c p => p.1.2 p.2 c) c

/-- Reads a section. It may also be written as a list of at least so many
    choices in order. A date holds no choice that is known. -/
def readSection (choices : List (String × Choice)) (least : Nat) : Choice
  | .table _ members, c => readNamed choices members c
  | .array items, c =>
    if items.length < least then .error .malformed else readListed choices items c
  | .moment _, c => .ok c
  | _, _ => .error .malformed

/-- The sections. -/
def sections : List (String × Choice) :=
  [("receiver", readSection [("auto_respond_key_exchange", readAutoRespond)] 0),
    ("multipart", readSection [("pending_expiry", readExpiry), ("max_pending", readMaxPending)] 0),
    ("logging", readSection [("level", readLevel), ("file", readFile)] 2)]

/-- The configuration in a text. -/
def parse (text : List Char) : Except ConfigError Config :=
  match Toml.parse? text with
  | none => .error .malformed
  | some document => readNamed sections document {}

end Config

end SecureInbox
