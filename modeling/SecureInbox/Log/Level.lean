import SecureInbox.Text.Numeral

/-!
# Log levels

How much is logged, from nothing at all to everything.
-/

namespace SecureInbox

/-- How much is logged. -/
inductive LogLevel
  | off
  | error
  | warn
  | info
  | debug
  | trace
  deriving DecidableEq, Repr

namespace LogLevel

/-- The levels, the quietest first. -/
def all : List LogLevel := [.off, .error, .warn, .info, .debug, .trace]

/-- The name of a level. -/
def label : LogLevel → String
  | .off => "off"
  | .error => "error"
  | .warn => "warn"
  | .info => "info"
  | .debug => "debug"
  | .trace => "trace"

/-- The place of a level among all. -/
def verbosity (l : LogLevel) : Nat := all.idxOf l

/-- The more verbose of two levels. -/
def max (a b : LogLevel) : LogLevel := if a.verbosity < b.verbosity then b else a

/-- The level with a name, in upper or lower case, or with a number. -/
def ofName? (name : List Char) : Option LogLevel :=
  match all.find? fun l => l.label.toList == name.map Char.toLower with
  | some l => some l
  | none =>
    let digits := match name with
      | '+' :: rest => rest
      | _ => name
    if digits ≠ [] ∧ digits.all Char.isDigit then all[Text.decimal digits]? else none

end LogLevel

end SecureInbox
