import SecureInbox.Duration.Basic
import SecureInbox.Text.Blank

/-!
# Reading durations

A duration is written as a list of items, each a number and the name of a unit,
such as `1h 30m`; it is their sum. Blanks may stand before a number, within it
and after a unit. A number may have a decimal fraction, which has to come out
as a whole number of seconds, or of nanoseconds where the unit is a minute or
less. A lone `0` needs no unit.

Every number on the way is held in 64 bits; one that does not fit is refused.
The offset in an error counts octets.
-/

namespace SecureInbox.Duration

/-- Why a text is no duration. -/
inductive Error
  | empty
  | numberExpected (offset : Nat)
  | invalidCharacter (offset : Nat)
  | unknownUnit (name : List Char) (value : Nat)
  | numberOverflow
  deriving DecidableEq, Repr

/-- The wording of an error. -/
def Error.message : Error → String
  | .empty => "value was empty"
  | .numberExpected offset => "expected number at " ++ toString offset
  | .invalidCharacter offset => "invalid character at " ++ toString offset
  | .unknownUnit [] n =>
    "time unit needed, for example " ++ toString n ++ "sec or " ++ toString n ++ "ms"
  | .unknownUnit name _ =>
    "unknown time unit \"" ++ String.ofList name ++ "\", supported units: ns, us/µs, ms, sec, " ++
      "min, hours, days, weeks, months, years (and few variations)"
  | .numberOverflow =>
    "number is too large or cannot be represented without a lack of precision " ++
      "(values below 1ns are not supported)"

/-- The digits after a decimal point: `numerator / denominator`. -/
structure Fraction where
  numerator : Nat
  denominator : Nat
  deriving DecidableEq, Repr

/-- The number before a unit. -/
structure Amount where
  whole : Nat
  fraction : Option Fraction
  deriving DecidableEq, Repr

/-- A number that fits in 64 bits. -/
def fit (n : Nat) : Except Error Nat := if n < 18446744073709551616 then .ok n else .error .numberOverflow

/-- The value of a decimal digit. -/
def digitValue (c : Char) : Nat := c.toNat - 48

/-- The characters of unit names. -/
def isUnitLetter (c : Char) : Bool := c.isAlpha || c == 'µ'

/-- The first digit of the next number, with the text after it and where that
    begins; nothing when only blanks are left. Whatever else comes first is an
    error at `start`, where the search began. -/
def firstDigit (start : Nat) : Nat → List Char → Except Error (Option (Nat × Nat × List Char))
  | _, [] => .ok none
  | i, c :: rest =>
    if c.isDigit then .ok (some (digitValue c, i + 1, rest))
    else if Text.isBlank c then firstDigit start (i + c.utf8Size) rest
    else .error (.numberExpected start)

/-- The digits after a decimal point, up to the unit. An error is reported at
    `mark`, the place after the last character that was in order. -/
def fractionPart (numerator denominator mark : Nat) :
    Nat → List Char → Except Error (Fraction × Nat × List Char)
  | _, [] =>
    if denominator = 1 then .error (.invalidCharacter mark)
    else .ok (⟨numerator, denominator⟩, mark, [])
  | i, c :: rest =>
    if c.isDigit then do
      let denominator ← fit (denominator * 10)
      let numerator ← fit (numerator * 10 + digitValue c)
      fractionPart numerator denominator (i + 1) (i + 1) rest
    else if Text.isBlank c then
      fractionPart numerator denominator (i + c.utf8Size) (i + c.utf8Size) rest
    else if isUnitLetter c ∧ denominator ≠ 1 then .ok (⟨numerator, denominator⟩, mark, c :: rest)
    else .error (.invalidCharacter mark)

/-- The rest of a number that begins with the digits of `n`, up to the unit. -/
def amount (n : Nat) : Nat → List Char → Except Error (Amount × Nat × List Char)
  | i, [] => .ok (⟨n, none⟩, i, [])
  | i, c :: rest =>
    if c.isDigit then do amount (← fit (n * 10 + digitValue c)) (i + 1) rest
    else if Text.isBlank c then amount n (i + c.utf8Size) rest
    else if isUnitLetter c then .ok (⟨n, none⟩, i, c :: rest)
    else if c = '.' then do
      let (fraction, j, rest) ← fractionPart 0 1 i (i + 1) rest
      return (⟨n, some fraction⟩, j, rest)
    else .error (.invalidCharacter i)

/-- The name of a unit. It ends before a digit or with a blank. -/
def unitName : Nat → List Char → Except Error (List Char × Nat × List Char)
  | i, [] => .ok ([], i, [])
  | i, c :: rest =>
    if c.isDigit then .ok ([], i, c :: rest)
    else if Text.isBlank c then .ok ([], i + c.utf8Size, rest)
    else if isUnitLetter c then do
      let (name, j, rest) ← unitName (i + c.utf8Size) rest
      return (c :: name, j, rest)
    else .error (.invalidCharacter i)

/-- The quotient of a division that leaves no remainder. -/
def quotient (n d : Nat) : Except Error Nat :=
  if n % d = 0 then .ok (n / d) else .error .numberOverflow

/-- A duration made longer by some seconds and nanoseconds. -/
def lengthen (d : Duration) (seconds nanoseconds : Nat) : Except Error Duration := do
  let _ ← fit (d.subseconds + nanoseconds)
  match ofNanoseconds? (d.nanoseconds + seconds * 1000000000 + nanoseconds) with
  | some sum => .ok sum
  | none => .error .numberOverflow

/-- A duration made longer by whole units. -/
def addWhole (d : Duration) (n : Nat) (u : TimeUnit) : Except Error Duration :=
  match u.scale with
  | .seconds k => do lengthen d (← fit (n * k)) 0
  | .nanoseconds k => do lengthen d 0 (← fit (n * k))

/-- A duration made longer by a fraction of a unit. Nothing is finer than a
    nanosecond; a fraction of an hour or more counts in seconds. -/
def addFraction (d : Duration) (f : Fraction) (u : TimeUnit) : Except Error Duration :=
  match u, u.scale with
  | .nanosecond, _ => .error .numberOverflow
  | .second, _ => do lengthen d 0 (← quotient (← fit (f.numerator * 1000000000)) f.denominator)
  | .minute, _ => do lengthen d 0 (← quotient (← fit (f.numerator * 60000000000)) f.denominator)
  | _, .seconds k => do lengthen d (← quotient (← fit (f.numerator * k)) f.denominator) 0
  | _, .nanoseconds k => do lengthen d 0 (← quotient (← fit (f.numerator * k)) f.denominator)

/-- A duration made longer by one item. -/
def addItem (d : Duration) (a : Amount) (name : List Char) : Except Error Duration :=
  match TimeUnit.ofName? name with
  | none => .error (.unknownUnit name a.whole)
  | some u => do
    let d ← addWhole d a.whole u
    match a.fraction with
    | none => return d
    | some f => addFraction d f u

/-- The sum of `d` and the items that follow, where the digits of `n` have been
    read already. The fuel bounds the number of items. -/
def items : Nat → Duration → Nat → Nat → List Char → Except Error Duration
  | 0, d, _, _, _ => .ok d
  | fuel + 1, d, n, i, text => do
    let (a, i, text) ← amount n i text
    let (name, i, text) ← unitName i text
    let d ← addItem d a name
    match ← firstDigit i i text with
    | none => return d
    | some (n, i, text) => items fuel d n i text

/-- The duration a text stands for. Every item takes at least one character, so
    the length of the text bounds their number. -/
def parse (text : List Char) : Except Error Duration :=
  if text = ['0'] then .ok zero
  else do
    match ← firstDigit 0 0 text with
    | none => .error .empty
    | some (n, i, rest) => items text.length zero n i rest

end SecureInbox.Duration
