import SecureInbox.Log.Level
import SecureInbox.Log.Pattern
import SecureInbox.Text.Blank
import SecureInbox.Text.Octets
import SecureInbox.Text.Pieces

/-!
# Log directives

A directive says how much is logged of what. In full it is written

    target[span{field=value}]=level

where everything is optional but one of the target, the brackets and the level.
A lone word is a level if it can be one, and else a target. What is named
without a level is logged in full.

A directive is read with a place in it (`Place`) that every character moves on.
Names are cut out of the text afterwards, by the offsets at which they begin and
end. Blanks around a directive are skipped by the reader, but offsets are
counted from the first character that is not blank and taken from the first one
of all; so blanks before a directive shift everything that is cut out of it.
-/

namespace SecureInbox

/-- What a directive asks of a field: to be there, or to have a value. -/
structure LogField where
  name : String
  value : Option String
  deriving DecidableEq, Repr

/-- How much is logged of what. -/
structure LogDirective where
  target : Option String := none
  span : Option String := none
  fields : List LogField := []
  level : LogLevel := .trace
  deriving DecidableEq, Repr

/-- Why a text is no filter. -/
inductive LogFilterError
  | badDirective
  | unknownLevel
  | badValue (cause : PatternFault)
  deriving DecidableEq, Repr

/-- The wording of an error. -/
def LogFilterError.message : LogFilterError → String
  | .badDirective => "invalid filter directive"
  | .unknownLevel =>
    "error parsing level filter: expected one of \"off\", \"error\", \"warn\", \"info\", " ++
      "\"debug\", \"trace\", or a number 0-5"
  | .badValue cause => "invalid field filter: " ++ cause.message

/-- The field in a text. What comes after a second equals sign does not count. -/
def LogField.ofText (text : List Char) : Except LogFilterError LogField :=
  match Text.pieces '=' text with
  | name :: value :: _ =>
    match Pattern.checkValue value with
    | .ok () => .ok ⟨String.ofList name, some (String.ofList value)⟩
    | .error cause => .error (.badValue cause)
  | _ => .ok ⟨String.ofList text, none⟩

namespace LogDirective

/-- A place in a directive. Most begin at some offset. -/
inductive Place
  | start
  /-- In a target or a lone level. -/
  | word (start : Nat)
  /-- In the name of a span. -/
  | span (start : Nat)
  | field (start : Nat)
  /-- After the fields. -/
  | afterFields
  /-- After the brackets. -/
  | afterSpan
  | level (start : Nat)
  deriving DecidableEq, Repr

/-- The characters that a directive may begin with, apart from a bracket. -/
def isStart (c : Char) : Bool := Text.isAlphanumeric c || c == '-' || c == ':' || c == '_'

/-- The stretch of a text between two offsets. -/
def stretch (text : List Char) (start stop : Nat) : Except LogFilterError (List Char) :=
  match (Text.dropOctets start text).bind (Text.takeOctets (stop - start)) with
  | some cut => .ok cut
  | none => .error .badDirective

/-- The rest of a text from an offset on. -/
def stretchFrom (text : List Char) (start : Nat) : Except LogFilterError (List Char) :=
  match Text.dropOctets start text with
  | some cut => .ok cut
  | none => .error .badDirective

/-- The directive so far, and the place in it. -/
structure Draft where
  place : Place := .start
  directive : LogDirective := {}

/-- The draft after one more field of a text. -/
def addField (text : List Char) (start stop : Nat) (directive : LogDirective) :
    Except LogFilterError LogDirective := do
  match ← stretch text start stop with
  | [] => .error .badDirective
  | cut => return { directive with fields := directive.fields ++ [← LogField.ofText cut] }

/-- Moves on by a character of a text, which stands at an offset. -/
def step (text : List Char) (draft : Draft) (offset : Nat) (c : Char) :
    Except LogFilterError Draft :=
  let directive := draft.directive
  match draft.place with
  | .start =>
    if c = '[' then .ok { draft with place := .span (offset + 1) }
    else if isStart c then .ok { draft with place := .word offset }
    else .error .badDirective
  | .word start =>
    if c = '=' ∨ c = '[' then do
      let target := String.ofList (← stretch text start offset)
      return {
        place := if c = '=' then .level (offset + 1) else .span (offset + 1)
        directive := { directive with target := some target } }
    else .ok draft
  | .span start =>
    if c = ']' then do
      let span := String.ofList (← stretch text start offset)
      return { place := .afterSpan, directive := { directive with span := some span } }
    else if c = '\x7b' then do
      let span := String.ofList (← stretch text start offset)
      return {
        place := .field (offset + 1)
        directive := { directive with span := if span.isEmpty then none else some span } }
    else .ok draft
  | .field start =>
    if c = '\x7d' then do
      return { place := .afterFields, directive := ← addField text start offset directive }
    else .ok draft
  | .afterFields => if c = ']' then .ok { draft with place := .afterSpan } else .error .badDirective
  | .afterSpan =>
    if c = '=' then .ok { draft with place := .level (offset + 1) } else .error .badDirective
  | .level _ => .ok draft

/-- Moves on by characters of a text, of which the first stands at an offset. -/
def steps (text : List Char) (draft : Draft) (offset : Nat) :
    List Char → Except LogFilterError Draft
  | [] => .ok draft
  | c :: rest => do steps text (← step text draft offset c) (offset + c.utf8Size) rest

/-- The directive when its text ends. -/
def finish (text : List Char) (draft : Draft) : Except LogFilterError LogDirective :=
  let directive := draft.directive
  match draft.place with
  | .word start => do
    let word ← stretchFrom text start
    match LogLevel.ofName? word with
    | some level => return { directive with level }
    | none => return { directive with target := some (String.ofList word) }
  | .level start => do
    match ← stretchFrom text start with
    | [] => return directive
    | name =>
      match LogLevel.ofName? name with
      | some level => return { directive with level }
      | none => .error .unknownLevel
  | .afterSpan => .ok directive
  | _ => .error .badDirective

/-- The directive in a text. -/
def ofText (text : List Char) : Except LogFilterError LogDirective := do
  finish text (← steps text {} 0 (Text.trim text))

end LogDirective

end SecureInbox
