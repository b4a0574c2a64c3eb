import SecureInbox.Text.Numeral
import SecureInbox.Toml.Item

/-!
# TOML scalars

Strings in their four forms, numbers, dates and times, read off the start of a
text.
-/

namespace SecureInbox.Toml

/-! ## Blanks and line ends -/

/-- The blanks within a line. -/
def isBlank (c : Char) : Bool := c == ' ' || c == '\t'

/-- The text from its first character that is no blank. -/
def skipBlanks (text : List Char) : List Char := text.dropWhile isBlank

/-- The characters that a comment may hold: all but controls. -/
def isPlain (c : Char) : Bool := c == '\t' || (0x20 ≤ c.toNat && c.toNat != 0x7F)

/-- The text after a line end; the end of the text counts as one. -/
def lineEnd? : List Char → Option (List Char)
  | [] => some []
  | '\n' :: rest => some rest
  | '\r' :: '\n' :: rest => some rest
  | _ => none

/-- The text after what may follow a statement on its line: blanks and a
    comment. -/
def endOfLine? (text : List Char) : Option (List Char) :=
  match skipBlanks text with
  | '#' :: rest => lineEnd? (rest.dropWhile isPlain)
  | text => lineEnd? text

/-- The text after blanks, line ends and comments. -/
def skipGaps (inComment : Bool) : List Char → List Char
  | '\n' :: rest => skipGaps false rest
  | '\r' :: '\n' :: rest => skipGaps false rest
  | '#' :: rest => skipGaps true rest
  | c :: rest =>
    if (if inComment then isPlain c else isBlank c) then skipGaps inComment rest else c :: rest
  | [] => []

/-! ## Strings -/

/-- The characters that are escaped by a single letter. -/
def letterEscapes : List (Char × Char) :=
  [('"', '"'), ('\\', '\\'), ('b', '\x08'), ('f', '\x0c'), ('n', '\n'), ('r', '\r'), ('t', '\t')]

/-- The character with a number that is written in hexadecimal digits. -/
def numbered? (digits : List Char) : Option Char := do
  let n ← Text.hexadecimal? digits
  if n.isValidChar then some (Char.ofNat n) else none

/-- Puts a character before a string that was read. -/
def push (c : Char) (read : Option (List Char × List Char)) : Option (List Char × List Char) :=
  read.map fun (cs, rest) => (c :: cs, rest)

/-- A string in double quotes, after the quote. -/
def quoted? : List Char → Option (List Char × List Char)
  | '"' :: rest => some ([], rest)
  | '\\' :: 'u' :: a :: b :: c :: d :: rest => do
    push (← numbered? [a, b, c, d]) (quoted? rest)
  | '\\' :: 'U' :: a :: b :: c :: d :: e :: f :: g :: h :: rest => do
    push (← numbered? [a, b, c, d, e, f, g, h]) (quoted? rest)
  | '\\' :: letter :: rest => do push (← letterEscapes.lookup letter) (quoted? rest)
  | c :: rest => if isPlain c && c != '\\' then push c (quoted? rest) else none
  | [] => none

/-- A string in single quotes, after the quote. -/
def literal? : List Char → Option (List Char × List Char)
  | '\'' :: rest => some ([], rest)
  | c :: rest => if isPlain c then push c (literal? rest) else none
  | [] => none

/-- Where in a folded line end a string is. A backslash at the end of a line
    takes all blanks and line ends after it away. -/
inductive Fold
  | outside
  /-- Between the backslash and the end of its line. -/
  | opened
  /-- After the end of that line. -/
  | passed
  deriving DecidableEq

/-- A string of several lines in double quotes, after the opening quotes. Up to
    two quotes may stand before the closing ones. -/
def quotedLines? : Fold → List Char → Option (List Char × List Char)
  | .opened, '\n' :: rest => quotedLines? .passed rest
  | .opened, '\r' :: '\n' :: rest => quotedLines? .passed rest
  | .opened, c :: rest => if isBlank c then quotedLines? .opened rest else none
  | .passed, '\n' :: rest => quotedLines? .passed rest
  | .passed, '\r' :: '\n' :: rest => quotedLines? .passed rest
  | .passed, ' ' :: rest => quotedLines? .passed rest
  | .passed, '\t' :: rest => quotedLines? .passed rest
  | _, '"' :: '"' :: '"' :: '"' :: '"' :: rest => some (['"', '"'], rest)
  | _, '"' :: '"' :: '"' :: '"' :: rest => some (['"'], rest)
  | _, '"' :: '"' :: '"' :: rest => some ([], rest)
  | _, '\\' :: 'u' :: a :: b :: c :: d :: rest => do
    push (← numbered? [a, b, c, d]) (quotedLines? .outside rest)
  | _, '\\' :: 'U' :: a :: b :: c :: d :: e :: f :: g :: h :: rest => do
    push (← numbered? [a, b, c, d, e, f, g, h]) (quotedLines? .outside rest)
  | _, '\\' :: '\n' :: rest => quotedLines? .passed rest
  | _, '\\' :: '\r' :: '\n' :: rest => quotedLines? .passed rest
  | _, '\\' :: letter :: rest =>
    if isBlank letter then quotedLines? .opened rest
    else do push (← letterEscapes.lookup letter) (quotedLines? .outside rest)
  | _, '\n' :: rest => push '\n' (quotedLines? .outside rest)
  | _, '\r' :: '\n' :: rest => push '\n' (quotedLines? .outside rest)
  | _, c :: rest => if isPlain c && c != '\\' then push c (quotedLines? .outside rest) else none
  | _, [] => none

/-- A string of several lines in single quotes, after the opening quotes. -/
def literalLines? : List Char → Option (List Char × List Char)
  | '\'' :: '\'' :: '\'' :: '\'' :: '\'' :: rest => some (['\'', '\''], rest)
  | '\'' :: '\'' :: '\'' :: '\'' :: rest => some (['\''], rest)
  | '\'' :: '\'' :: '\'' :: rest => some ([], rest)
  | '\n' :: rest => push '\n' (literalLines? rest)
  | '\r' :: '\n' :: rest => push '\n' (literalLines? rest)
  | c :: rest => if isPlain c then push c (literalLines? rest) else none
  | [] => none

/-- The text without a line end right at its start. -/
def dropLineEnd : List Char → List Char
  | '\n' :: rest => rest
  | '\r' :: '\n' :: rest => rest
  | text => text

/-- A string in any of the four forms. -/
def string? : List Char → Option (String × List Char)
  | '"' :: '"' :: '"' :: rest => (quotedLines? .outside (dropLineEnd rest)).map ofChars
  | '\'' :: '\'' :: '\'' :: rest => (literalLines? (dropLineEnd rest)).map ofChars
  | '"' :: rest => (quoted? rest).map ofChars
  | '\'' :: rest => (literal? rest).map ofChars
  | _ => none
where
  /-- The string of the characters read. -/
  ofChars (r : List Char × List Char) : String × List Char := (String.ofList r.1, r.2)

/-! ## Numbers -/

/-- More digits after a first one; single underscores may stand between
    digits. -/
def moreDigits? (isDigit : Char → Bool) : List Char → Option (List Char × List Char)
  | '_' :: c :: rest => if isDigit c then push c (moreDigits? isDigit rest) else none
  | ['_'] => none
  | c :: rest => if isDigit c then push c (moreDigits? isDigit rest) else some ([], c :: rest)
  | [] => some ([], [])

/-- Digits, one at least. -/
def digits? (isDigit : Char → Bool) : List Char → Option (List Char × List Char)
  | c :: rest => if isDigit c then push c (moreDigits? isDigit rest) else none
  | [] => none

/-- A sign, if there is one. -/
def sign : List Char → Bool × List Char
  | '+' :: rest => (false, rest)
  | '-' :: rest => (true, rest)
  | text => (false, text)

/-- The whole part of a decimal number: no zero comes before another digit. -/
def whole? : List Char → Option (List Char × List Char)
  | '0' :: rest => some (['0'], rest)
  | text => digits? Char.isDigit text

/-- An integer in the range of 64 bits. -/
def inRange? (n : Int) : Option Int :=
  if -9223372036854775808 ≤ n ∧ n < 9223372036854775808 then some n else none

/-- An integer in a base that is a power of two, after the letter of the
    base. -/
def based? (base : Nat) (text : List Char) : Option (Item × List Char) := do
  let isDigit (c : Char) := (Text.hexValue? c).any (· < base)
  let (ds, rest) ← digits? isDigit text
  let n := ds.foldl (fun n c => base * n + (Text.hexValue? c).getD 0) 0
  return (.integer (← inRange? (Int.ofNat n)), rest)

/-- The fraction of a real number, if there is one. -/
def fraction? : List Char → Option (Option (List Char) × List Char)
  | '.' :: rest => (digits? Char.isDigit rest).map fun (ds, rest) => (some ds, rest)
  | text => some (none, text)

/-- The exponent of a real number, if there is one. -/
def exponent? : List Char → Option (Option Int × List Char)
  | c :: rest =>
    if c = 'e' ∨ c = 'E' then
      let (negative, rest) := sign rest
      (digits? Char.isDigit rest).map fun (ds, rest) =>
        let n := Int.ofNat (Text.decimal ds)
        (some (if negative then -n else n), rest)
    else some (none, c :: rest)
  | [] => some (none, [])

/-- A decimal number, an infinity or no number. A number too large to be held is
    refused if it is positive. -/
def decimal? (text : List Char) : Option (Item × List Char) := do
  let (negative, rest) := sign text
  match rest with
  | 'i' :: 'n' :: 'f' :: rest => return (.real "inf", rest)
  | 'n' :: 'a' :: 'n' :: rest => return (.real "nan", rest)
  | _ =>
    let (whole, rest) ← whole? rest
    let (fraction, rest) ← fraction? rest
    let (exponent, rest) ← exponent? rest
    if fraction.isNone ∧ exponent.isNone then
      let n := Int.ofNat (Text.decimal whole)
      return (.integer (← inRange? (if negative then -n else n)), rest)
    else if negative ∨ Text.Numeral.isFinite { negative, whole, fraction, exponent } then
      return (.real (String.ofList (text.take (text.length - rest.length))), rest)
    else none

/-! ## Dates and times -/

/-- A number of so many digits, within bounds. -/
def fixed? (count low high : Nat) (text : List Char) : Option (Nat × List Char) :=
  let ds := text.take count
  let n := Text.decimal ds
  if ds.length = count ∧ ds.all Char.isDigit ∧ low ≤ n ∧ n ≤ high then some (n, text.drop count)
  else none

/-- The text after a character it begins with. -/
def after? (c : Char) : List Char → Option (List Char)
  | d :: rest => if d = c then some rest else none
  | [] => none

/-- The number of days of a month. -/
def daysIn (year month : Nat) : Nat :=
  if month = 2 then
    if year % 4 = 0 ∧ (year % 100 ≠ 0 ∨ year % 400 = 0) then 29 else 28
  else if month = 4 ∨ month = 6 ∨ month = 9 ∨ month = 11 then 30
  else 31

/-- The text after a date. -/
def date? (text : List Char) : Option (List Char) := do
  let (year, rest) ← fixed? 4 0 9999 text
  let (month, rest) ← fixed? 2 1 12 (← after? '-' rest)
  let (_, rest) ← fixed? 2 1 (daysIn year month) (← after? '-' rest)
  return rest

/-- The text after a time of day. A minute may have a leap second. -/
def time? (text : List Char) : Option (List Char) := do
  let (_, rest) ← fixed? 2 0 23 text
  let (_, rest) ← fixed? 2 0 59 (← after? ':' rest)
  let (_, rest) ← fixed? 2 0 60 (← after? ':' rest)
  match rest with
  | '.' :: fraction =>
    if (fraction.head?.map Char.isDigit).getD false then return fraction.dropWhile Char.isDigit
    else none
  | rest => return rest

/-- The text after the offset of a time, if there is one. -/
def afterOffset? : List Char → Option (List Char)
  | c :: rest =>
    if c = 'Z' ∨ c = 'z' then some rest
    else if c = '+' ∨ c = '-' then do
      let (_, rest) ← fixed? 2 0 23 rest
      let (_, rest) ← fixed? 2 0 59 (← after? ':' rest)
      return rest
    else some (c :: rest)
  | [] => some []

/-- The text after the time that may follow a date. -/
def afterTime (text : List Char) : Option (List Char) :=
  match text with
  | c :: rest =>
    if c = 'T' ∨ c = 't' ∨ c = ' ' then
      match time? rest with
      | some rest => afterOffset? rest
      | none => some text
    else some text
  | [] => some []

/-- A date, a time of day, or both. -/
def moment? (text : List Char) : Option (Item × List Char) := do
  let rest ← match date? text with
    | some rest => afterTime rest
    | none => time? text
  return (.moment (String.ofList (text.take (text.length - rest.length))), rest)

/-- A number, a date or a time. -/
def number? (text : List Char) : Option (Item × List Char) :=
  match moment? text with
  | some r => some r
  | none =>
    match text with
    | '0' :: 'x' :: rest => based? 16 rest
    | '0' :: 'o' :: rest => based? 8 rest
    | '0' :: 'b' :: rest => based? 2 rest
    | _ => decimal? text

end SecureInbox.Toml
