import SecureInbox.Log.Pattern.Escape
import SecureInbox.Log.Pattern.Part

/-!
# Sets in brackets

A set in brackets has characters, ranges of them, escapes, named sets such as
`[:alpha:]` and further sets in brackets. Sets are combined by the operators
`&&`, `--` and `~~`, each of which takes all before it as its left side.

A caret after the opening bracket stands for the complement, which exists only
for Unicode. Dashes that come first stand for themselves, and so does a closing
bracket that comes first of all.
-/

namespace SecureInbox.Pattern

/-- A set whose closing bracket is still to come. -/
structure OpenSet where
  /-- What stands before the last operator. -/
  left : Option Part := none
  /-- What stands after it. -/
  items : List Part := []
  /-- Nothing but dashes was read. -/
  opening : Bool := true

namespace OpenSet

/-- The set with one more item. -/
def add (s : OpenSet) (item : Part) : OpenSet :=
  { s with items := item :: s.items, opening := false }

/-- All that stands in the set. -/
def content (s : OpenSet) : Part :=
  match s.left with
  | none => Part.join s.items
  | some left => Part.join [left, Part.join s.items]

/-- The set after an operator. -/
def operate (s : OpenSet) : OpenSet := { left := some s.content, opening := false }

end OpenSet

/-- The names of sets of ASCII characters. -/
def namedSets : List String :=
  ["alnum", "alpha", "ascii", "blank", "cntrl", "digit", "graph", "lower", "print", "punct",
    "space", "upper", "word", "xdigit"]

/-- Whether a named set, whose text follows an opening bracket, is a complement,
    and what follows the set. -/
def namedSet? : List Char → Option (Bool × List Char)
  | ':' :: text =>
    let (complement, text) := match text with
      | '^' :: rest => (true, rest)
      | rest => (false, rest)
    match text.span (· != ':') with
    | (name, ':' :: ']' :: rest) =>
      if namedSets.contains (String.ofList name) then some (complement, rest) else none
    | _ => none
  | _ => none

/-- What follows an opening bracket and the caret that may come after it. -/
def afterOpening? (m : Mode) (text : List Char) : Option (List Char) :=
  match m.skip text with
  | '^' :: rest => if m.unicode then some rest else none
  | text => some text

/-- A character, or what an escape stands for. -/
def item? (m : Mode) : List Char → Option (Escape × List Char)
  | '\\' :: rest => do
    let (escape, rest) ← escape? m rest
    match escape with
    | .char c => if m.admits c then some (.char c, rest) else none
    | escape => some (escape, rest)
  | c :: rest => if m.admits c then some (.char c, rest) else none
  | [] => none

/-- What follows an item or a range. A dash before another dash or before the
    closing bracket makes no range. -/
def afterItem? (m : Mode) (text : List Char) : Option (List Char) := do
  let (first, rest) ← item? m text
  let alone := if first.matchesCharacter then some rest else none
  match m.skip rest with
  | '-' :: more =>
    if m.peek? more = some ']' ∨ m.peek? more = some '-' then alone
    else
      match first, ← item? m (m.skip more) with
      | .char a, (.char b, rest) => if a ≤ b then some rest else none
      | _, _ => none
  | _ => alone

/-- The set whose text follows an opening bracket, and what comes after it. The
    sets in `outer` are open around it, the innermost first. The fuel bounds the
    number of steps. -/
def set? (m : Mode) : Nat → OpenSet → List OpenSet → List Char → Option (Part × List Char)
  | 0, _, _, _ => none
  | fuel + 1, s, outer, text =>
    match m.skip text with
    | [] => none
    | c :: rest =>
      if s.opening && (c == '-' || (c == ']' && s.items.isEmpty)) then
        set? m fuel { s.add {} with opening := c == '-' } outer rest
      else
        match c, rest with
        | '[', rest =>
          match namedSet? rest with
          | some (complement, rest) =>
            if complement && !m.unicode then none else set? m fuel (s.add {}) outer rest
          | none => do set? m fuel {} (s :: outer) (← afterOpening? m rest)
        | ']', rest =>
          match outer with
          | [] => some (s.content.wrap, rest)
          | around :: outer => set? m fuel (around.add s.content.wrap) outer rest
        | '&', '&' :: rest => set? m fuel s.operate outer rest
        | '-', '-' :: rest => set? m fuel s.operate outer rest
        | '~', '~' :: rest => set? m fuel s.operate outer rest
        | c, rest => do set? m fuel (s.add {}) outer (← afterItem? m (c :: rest))

end SecureInbox.Pattern
