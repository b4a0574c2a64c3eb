import SecureInbox.Log.Pattern.Mode
import SecureInbox.Text.Numeral

/-!
# Escapes

What may follow a backslash in a pattern: the number of a character, the letter
of a control, a category of characters, a set, an edge, or any character of
ASCII that is no letter or digit.
-/

namespace SecureInbox.Pattern

/-- What an escape stands for. -/
inductive Escape
  | char (c : Char)
  /-- A set of characters. -/
  | set
  /-- The start or the end of the text, or an edge of a word of ASCII. -/
  | boundary
  /-- An edge of a word of Unicode. -/
  | wordEdge
  deriving DecidableEq

namespace Escape

/-- The escape stands for one of some characters. -/
def matchesCharacter : Escape → Bool
  | .char _ => true
  | .set => true
  | .boundary => false
  | .wordEdge => false

end Escape

/-- So many hexadecimal digits, and what follows them. -/
def hexDigits? (m : Mode) : Nat → List Char → Option (List Char × List Char)
  | 0, text => some ([], text)
  | n + 1, text =>
    match m.skip text with
    | c :: rest =>
      if (Text.hexValue? c).isSome then (hexDigits? m n rest).map fun (ds, rest) => (c :: ds, rest)
      else none
    | [] => none

/-- The character with a number of so many hexadecimal digits. -/
def numbered? (m : Mode) (count : Nat) (text : List Char) : Option (Char × List Char) := do
  let (digits, rest) ← hexDigits? m count text
  let n ← Text.hexadecimal? digits
  if n.isValidChar then some (Char.ofNat n, rest) else none

/-- The letters that are escapes of a control. -/
def controls : List (Char × Char) :=
  [('a', '\x07'), ('f', '\x0c'), ('t', '\t'), ('n', '\n'), ('r', '\r'), ('v', '\x0b')]

/-- The letters of the major categories of characters. -/
def categories : List Char := "clmnpsz".toList

/-- The escape whose text follows a backslash, and what comes after it. Without
    Unicode a number of two digits is that of an octet, so it has to be one of
    ASCII, and there are neither categories nor complements of sets. -/
def escape? (m : Mode) : List Char → Option (Escape × List Char)
  | [] => none
  | c :: rest =>
    if c = 'x' then do
      let (char, rest) ← numbered? m 2 rest
      if m.admits char then some (.char char, rest) else none
    else if c = 'u' then (numbered? m 4 rest).map fun (char, rest) => (.char char, rest)
    else if c = 'U' then (numbered? m 8 rest).map fun (char, rest) => (.char char, rest)
    else if c = 'p' ∨ c = 'P' then
      match m.skip rest with
      | category :: rest =>
        if m.unicode && categories.contains category.toLower then some (.set, rest) else none
      | [] => none
    else if "dsw".toList.contains c then some (.set, rest)
    else if "DSW".toList.contains c then if m.unicode then some (.set, rest) else none
    else if c = 'A' ∨ c = 'z' then some (.boundary, rest)
    else if "bB<>".toList.contains c then
      some (if m.unicode then .wordEdge else .boundary, rest)
    else
      match controls.lookup c with
      | some control => some (.char control, rest)
      | none => if c.toNat < 128 && !c.isAlphanum then some (.char c, rest) else none

end SecureInbox.Pattern
