import SecureInbox.Text.Blank

/-!
# The mode of a pattern

Flags in a pattern change how the rest of it is read, up to the end of the group
they stand in. Two of them matter to whether a pattern is well formed:

* `u` lets sets and edges of words go by all of Unicode. Without it everything
  but a plain character has to stay within ASCII, since what is matched is text
  and not any octets.
* `x` lets blanks and comments, from `#` to the end of the line, stand between
  the parts of a pattern.
-/

namespace SecureInbox.Pattern

/-- How a pattern is read. -/
structure Mode where
  /-- Sets and edges of words go by all of Unicode. -/
  unicode : Bool := true
  /-- Blanks and comments do not count. -/
  spaced : Bool := false
  deriving DecidableEq, Repr

/-- The text after blanks and comments. -/
def skipSpace (inComment : Bool) : List Char → List Char
  | [] => []
  | c :: rest =>
    if inComment then skipSpace (c != '\n') rest
    else if c = '#' then skipSpace true rest
    else if Text.isBlank c then skipSpace false rest
    else c :: rest

namespace Mode

/-- The text from where it counts. -/
def skip (m : Mode) (text : List Char) : List Char := if m.spaced then skipSpace false text else text

/-- The next character that counts. Of a comment only the mark is passed over,
    so the comment itself is looked into. -/
def peek? (m : Mode) (text : List Char) : Option Char :=
  if m.spaced then
    match text.dropWhile Text.isBlank with
    | '#' :: rest => (rest.dropWhile Text.isBlank).head?
    | rest => rest.head?
  else text.head?

/-- A set of characters may reach beyond ASCII only if it goes by Unicode. -/
def admits (m : Mode) (c : Char) : Bool := m.unicode || c.toNat < 128

end Mode

/-! ## Flags -/

/-- The letters of flags. -/
def flagLetters : List Char := "imsUuRx".toList

/-- The flags up to `:` or `)`, that character, and what follows it. A dash may
    come once, before the last flag at the latest, and no flag twice. -/
def flags? (text : List Char) : Option (List Char × Char × List Char) :=
  match text.span (fun c => c != ':' && c != ')') with
  | (flags, stop :: rest) =>
    if flags.all (fun c => c == '-' || flagLetters.contains c) && flags.eraseDups == flags &&
        flags.getLast? != some '-' then
      some (flags, stop, rest)
    else none
  | _ => none

/-- What flags make of a choice: one before the dash turns it on, and one after
    the dash turns it off. -/
def turned (flag : Char) (flags : List Char) (old : Bool) : Bool :=
  if flags.contains flag then (flags.takeWhile (· != '-')).contains flag else old

/-- The mode after flags. -/
def Mode.apply (m : Mode) (flags : List Char) : Mode where
  unicode := turned 'u' flags m.unicode
  spaced := turned 'x' flags m.spaced

end SecureInbox.Pattern
