import SecureInbox.Toml.Item

/-!
# Writing TOML strings

A string is quoted in one of four ways: between double quotes, where characters
may be escaped, or between single quotes, where they stand for themselves, and
each of these on one line or, between three quotes, on several. The first way in
this order that the string fits is taken (`quotingOf`):

* on one line between double quotes, if nothing has to be escaped;
* on one line between single quotes;
* on several lines between double quotes, if nothing has to be escaped but tabs;
* on several lines between single quotes;
* between double quotes with escapes.
-/

namespace SecureInbox.Toml

/-- The upper-case digit of a number below sixteen. -/
def upperDigit (n : Nat) : Char := if n < 10 then Char.ofNat (48 + n) else Char.ofNat (55 + n)

/-- The character is a control. -/
def isControl (c : Char) : Bool := c.toNat < 32 || c.toNat == 127

/-- The control can only be written as an escape. -/
def needsEscape (c : Char) : Bool := isControl c && c != '\t' && c != '\n'

/-- The length of the longest run of a character. The run that the text
    continues has length `run`. -/
def longestRun (mark : Char) (run : Nat) : List Char → Nat
  | [] => run
  | c :: rest =>
    if c = mark then longestRun mark (run + 1) rest else max run (longestRun mark 0 rest)

/-- The ways to quote a string. -/
inductive Quoting
  | basic
  | literal
  | basicLines
  | literalLines
  deriving DecidableEq, Repr

/-- The way a string is quoted. Up to two quotes in a row do no harm between
    three. -/
def quotingOf (s : List Char) : Quoting :=
  let lines := s.contains '\n'
  let escapes := s.any needsEscape
  let backslash := s.contains '\\'
  let doubles := longestRun '"' 0 s
  let singles := longestRun '\'' 0 s
  if !escapes && !backslash && doubles == 0 && !lines then .basic
  else if !escapes && singles == 0 && !lines then .literal
  else if !escapes && !backslash && doubles ≤ 2 then .basicLines
  else if !escapes && singles ≤ 2 then .literalLines
  else if lines then .basicLines
  else .basic

/-- How a character other than a double quote stands between double quotes. Line
    ends are kept where the string takes several lines. -/
def escape (keepLines : Bool) (c : Char) : List Char :=
  if c = '\x08' then ['\\', 'b']
  else if c = '\t' then ['\\', 't']
  else if c = '\n' then if keepLines then ['\n'] else ['\\', 'n']
  else if c = '\x0c' then ['\\', 'f']
  else if c = '\r' then ['\\', 'r']
  else if c = '\\' then ['\\', '\\']
  else if isControl c then
    ['\\', 'u', '0', '0', upperDigit (c.toNat / 16), upperDigit (c.toNat % 16)]
  else [c]

/-- A string as it stands between double quotes, or between three of them where
    it takes several lines. There two double quotes in a row may stand as they
    are; the next one is escaped. The string continues a run of `run` double
    quotes. -/
def escaped (keepLines : Bool) (run : Nat) : List Char → List Char
  | [] => []
  | c :: rest =>
    if c = '"' then
      if run < if keepLines then 2 else 0 then '"' :: escaped keepLines (run + 1) rest
      else '\\' :: '"' :: escaped keepLines 0 rest
    else escape keepLines c ++ escaped keepLines 0 rest

/-- The written form of a string. A line end before the first line does not
    count, so one is put before a string that has line ends. -/
def renderString (s : List Char) : List Char :=
  let start := if s.contains '\n' then ['\n'] else []
  match quotingOf s with
  | .basic => '"' :: escaped false 0 s ++ ['"']
  | .literal => '\'' :: s ++ ['\'']
  | .basicLines => "\"\"\"".toList ++ start ++ escaped true 0 s ++ "\"\"\"".toList
  | .literalLines => "'''".toList ++ start ++ s ++ "'''".toList

end SecureInbox.Toml
