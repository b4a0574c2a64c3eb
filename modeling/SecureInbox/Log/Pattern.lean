import SecureInbox.Log.Pattern.Bracket
import SecureInbox.Text.Alphanumeric

/-!
# Patterns

The value that a filter asks of a field is a number, a truth value or a pattern,
that is, a regular expression. Nothing is matched here; what counts is whether a
text is a value at all.

A pattern has alternatives between bars, groups in parentheses, sets of
characters in brackets, repetitions and escapes. A value cannot hold a closing
brace, so whatever needs one cannot be written.

* `check`: a pattern has to be well formed and not nested too deeply. Edges of
  words of Unicode are well formed but cannot be matched
  (`PatternFault.wordEdge`).
-/

namespace SecureInbox

/-- Why a text is no pattern. -/
inductive PatternFault
  /-- It is not well formed, or nested too deeply. -/
  | malformed
  /-- It asks for an edge of a word of Unicode. -/
  | wordEdge
  deriving DecidableEq, Repr

/-- The wording of a fault. -/
def PatternFault.message : PatternFault → String
  | .malformed => "error building NFA"
  | .wordEdge =>
    "unsupported regex feature for DFAs: cannot build DFAs for regexes with Unicode word " ++
      "boundaries; switch to ASCII word boundaries, or heuristically enable Unicode word " ++
      "boundaries or use a different regex engine"

namespace Pattern

/-- The greatest height of a pattern. -/
def maxHeight : Nat := 250

/-! ## Groups -/

/-- What was read since the last parenthesis that is still open. -/
structure Level where
  /-- The alternatives that have ended. -/
  alternatives : List Part := []
  /-- The parts of the last alternative, the last one first. -/
  parts : List Part := []
  /-- A repetition may follow. -/
  repeatable : Bool := false

namespace Level

/-- The level with one more part, which may be repeated. -/
def add (l : Level) (part : Part) : Level :=
  { l with parts := part :: l.parts, repeatable := true }

/-- The level with flags set in it. They are a part that cannot be repeated. -/
def addFlags (l : Level) : Level := { l with parts := {} :: l.parts, repeatable := false }

/-- The level after a bar. -/
def alternate (l : Level) : Level := { alternatives := Part.join l.parts :: l.alternatives }

/-- The level with its last part repeated, if that can be done. -/
def repeat? (l : Level) : Option Level :=
  match l.parts with
  | part :: parts => if l.repeatable then some { l with parts := part.wrap :: parts } else none
  | [] => none

/-- All that was read. -/
def content (l : Level) : Part := Part.join (Part.join l.parts :: l.alternatives)

end Level

/-- How far a pattern is read. -/
structure Progress where
  mode : Mode := {}
  level : Level := {}
  /-- The levels around this one, the innermost first, each with the mode to go
      on in. -/
  outer : List (Mode × Level) := []
  /-- The names of groups. -/
  names : List (List Char) := []

/-- The name of a group, which ends at `>`, and what follows it. -/
def groupName? (text : List Char) : Option (List Char × List Char) :=
  match text.span (· != '>') with
  | (first :: name, '>' :: rest) =>
    if (first == '_' || Text.isAlphabetic first) &&
        name.all (fun c => "_.[]".toList.contains c || Text.isAlphanumeric c) then
      some (first :: name, rest)
    else none
  | _ => none

namespace Progress

/-- The progress with one more part. -/
def add (p : Progress) (part : Part) : Progress := { p with level := p.level.add part }

/-- The progress at the start of a group, which is read in a mode. -/
def enter (p : Progress) (mode : Mode) : Progress :=
  { p with mode, level := {}, outer := (p.mode, p.level) :: p.outer }

/-- The progress at the start of a group with a name that is not in use yet. -/
def enterNamed? (p : Progress) (text : List Char) : Option (Progress × List Char) := do
  let (name, rest) ← groupName? text
  if p.names.contains name then none
  else some ({ p.enter p.mode with names := name :: p.names }, rest)

/-- The progress after the group or the flags whose text follows an opening
    parenthesis. -/
def open? (p : Progress) (text : List Char) : Option (Progress × List Char) :=
  match p.mode.skip text with
  | '?' :: 'P' :: '<' :: rest => p.enterNamed? rest
  | '?' :: '<' :: rest => p.enterNamed? rest
  | '?' :: rest => do
    let (flags, stop, rest) ← flags? rest
    let mode := p.mode.apply flags
    if stop = ':' then some (p.enter mode, rest)
    else if flags.isEmpty then none
    else some ({ p with mode, level := p.level.addFlags }, rest)
  | rest => some (p.enter p.mode, rest)

/-- The progress after a closing parenthesis. -/
def close? (p : Progress) : Option Progress :=
  match p.outer with
  | [] => none
  | (mode, level) :: outer => some { p with mode, level := level.add p.level.content.wrap, outer }

end Progress

/-! ## Patterns -/

/-- Reads the rest of a pattern. A point stands for any character, so there has
    to be Unicode. The fuel bounds the number of steps. -/
def read? : Nat → Progress → List Char → Option Part
  | 0, _, _ => none
  | fuel + 1, p, text =>
    match p.mode.skip text with
    | [] => if p.outer.isEmpty then some p.level.content else none
    | c :: rest =>
      if c = '(' then do
        let (p, rest) ← p.open? rest
        read? fuel p rest
      else if c = ')' then do read? fuel (← p.close?) rest
      else if c = '|' then read? fuel { p with level := p.level.alternate } rest
      else if c = '*' ∨ c = '+' ∨ c = '?' then do
        let p := { p with level := ← p.level.repeat? }
        match rest with
        | '?' :: rest => read? fuel p rest
        | rest => read? fuel p rest
      else if c = '\x7b' then none
      else if c = '[' then do
        let (set, rest) ← set? p.mode (rest.length + 1) {} [] (← afterOpening? p.mode rest)
        read? fuel (p.add set) rest
      else if c = '\\' then do
        let (escape, rest) ← escape? p.mode rest
        read? fuel (p.add { edges := escape == .wordEdge }) rest
      else if c = '.' && !p.mode.unicode then none
      else read? fuel (p.add {}) rest

/-- Checks a pattern. Every step reads a character, and one more finds the end. -/
def check (text : List Char) : Except PatternFault Unit :=
  match read? (text.length + 1) {} text with
  | none => .error .malformed
  | some part =>
    if maxHeight < part.height then .error .malformed
    else if part.edges then .error .wordEdge
    else .ok ()

/-- The text is a number without a sign: digits with a point somewhere or none,
    and perhaps an exponent, or a word for what is no finite number. -/
def isUnsignedNumber (text : List Char) : Bool :=
  let (whole, rest) := text.span Char.isDigit
  let (fraction, rest) := match rest with
    | '.' :: rest => rest.span Char.isDigit
    | rest => ([], rest)
  let exponent := match rest with
    | [] => true
    | c :: rest =>
      let digits := match rest with
        | '+' :: digits => digits
        | '-' :: digits => digits
        | digits => digits
      (c == 'e' || c == 'E') && !digits.isEmpty && digits.all Char.isDigit
  let word := String.ofList (text.map Char.toLower)
  (!(whole ++ fraction).isEmpty && exponent) || ["inf", "infinity", "nan"].contains word

/-- Checks a value. Every number but one with a plus sign, and every truth value,
    is a pattern as it stands. -/
def checkValue (text : List Char) : Except PatternFault Unit :=
  match text with
  | '+' :: number => if isUnsignedNumber number then .ok () else check text
  | text => check text

end Pattern

end SecureInbox
