import SecureInbox.Json.Magnitude
import SecureInbox.Json.Value

/-!
# Reading JSON

The grammar of RFC 8259. Only blanks, tabs and the two line-end characters may
stand between tokens, and no other character below the blank may stand in a
string.

A text begins with a value; what may follow it is left to the reader of the
value (`first?`). A string or number that has the right form but stands for
nothing is read as a garbled value and not refused here.
-/

namespace SecureInbox.Json

/-- The blanks of the format. -/
def isBlank (c : Char) : Bool := c == ' ' || c == '\n' || c == '\t' || c == '\r'

/-- The text from its first token on. -/
def skipBlanks (text : List Char) : List Char := text.dropWhile isBlank

/-! ## Strings -/

/-- What a string is made of: characters, and halves of characters that are
    written as escapes of 16 bits. -/
inductive Piece
  | char (c : Char)
  | half (n : Nat)

/-- The number lies in the range of surrogates. -/
def isSurrogate (n : Nat) : Bool := 0xD800 ≤ n && n < 0xE000

/-- The piece that an escape with a number is. -/
def Piece.ofNumber (n : Nat) : Piece := if isSurrogate n then .half n else .char (Char.ofNat n)

/-- The characters that are escaped by a single letter. -/
def letterEscapes : List (Char × Char) :=
  [('"', '"'), ('\\', '\\'), ('/', '/'), ('b', '\x08'), ('f', '\x0c'), ('n', '\n'), ('r', '\r'),
    ('t', '\t')]

/-- The pieces of a string up to its closing quote, and what follows that. -/
def pieces? : List Char → Option (List Piece × List Char)
  | '"' :: rest => some ([], rest)
  | '\\' :: 'u' :: a :: b :: c :: d :: rest => do
    let n ← Text.hexadecimal? [a, b, c, d]
    let (ps, rest) ← pieces? rest
    return (.ofNumber n :: ps, rest)
  | '\\' :: letter :: rest => do
    let c ← letterEscapes.lookup letter
    let (ps, rest) ← pieces? rest
    return (.char c :: ps, rest)
  | c :: rest =>
    if c.toNat < 32 ∨ c = '\\' then none
    else do
      let (ps, rest) ← pieces? rest
      return (.char c :: ps, rest)
  | [] => none

/-- The characters that pieces make: two halves that follow each other are one
    character if they are the two halves of a pair. -/
def Piece.join? : List Piece → Option (List Char)
  | [] => some []
  | .char c :: rest => (join? rest).map (c :: ·)
  | .half high :: .half low :: rest =>
    if high < 0xDC00 ∧ 0xDC00 ≤ low then
      (join? rest).map (Char.ofNat (0x10000 + (high - 0xD800) * 0x400 + (low - 0xDC00)) :: ·)
    else none
  | .half _ :: _ => none

/-- A string after its opening quote, and what follows it. The string is missing
    when its pieces make none. -/
def string? (text : List Char) : Option (Option String × List Char) :=
  (pieces? text).map fun (ps, rest) => ((Piece.join? ps).map String.ofList, rest)

/-! ## Numbers -/

/-- Splits off the digits at the start of a text. -/
def digits (text : List Char) : List Char × List Char := text.span Char.isDigit

/-- The whole digits at the start of a text: no zero comes before another
    digit. -/
def whole? (text : List Char) : Option (List Char × List Char) :=
  match digits text with
  | ([], _) => none
  | ('0' :: _ :: _, _) => none
  | (ds, rest) => some (ds, rest)

/-- The fraction at the start of a text. -/
def fraction? : List Char → Option (Option (List Char) × List Char)
  | '.' :: rest =>
    match digits rest with
    | ([], _) => none
    | (ds, rest) => some (some ds, rest)
  | text => some (none, text)

/-- The exponent at the start of a text. -/
def exponent? : List Char → Option (Option Int × List Char)
  | c :: rest =>
    if c = 'e' ∨ c = 'E' then
      let (negative, rest) := match rest with
        | '+' :: rest => (false, rest)
        | '-' :: rest => (true, rest)
        | rest => (false, rest)
      match digits rest with
      | ([], _) => none
      | (ds, rest) =>
        let n := Int.ofNat (Text.decimal ds)
        some (some (if negative then -n else n), rest)
    else some (none, c :: rest)
  | [] => some (none, [])

/-- The numeral at the start of a text. -/
def numeral? (text : List Char) : Option (Text.Numeral × List Char) := do
  let (negative, rest) := match text with
    | '-' :: rest => (true, rest)
    | rest => (false, rest)
  let (whole, rest) ← whole? rest
  let (fraction, rest) ← fraction? rest
  let (exponent, rest) ← exponent? rest
  return ({ negative, whole, fraction, exponent }, rest)

/-- The integer that is written, if it is one and in range. Zero has no sign. -/
def integer? (n : Text.Numeral) : Option Int :=
  let magnitude := Text.decimal n.whole
  if n.fraction.isSome ∨ n.exponent.isSome then none
  else if n.negative then
    if 0 < magnitude ∧ magnitude ≤ 9223372036854775808 then some (-Int.ofNat magnitude) else none
  else if magnitude < 18446744073709551616 then some (Int.ofNat magnitude)
  else none

/-- The value of a numeral that is read off a text and leaves a rest. -/
def ofNumeral (n : Text.Numeral) (text rest : List Char) : Value :=
  match integer? n with
  | some i => .integer i
  | none =>
    if isInRange n then .real (String.ofList (text.take (text.length - rest.length))) else .garbled

/-! ## Values -/

/-- The text after a word that it begins with. -/
def after? (word text : List Char) : Option (List Char) :=
  if word.isPrefixOf text then some (text.drop word.length) else none

/-- The value that is no array and no object at the start of a text. -/
def atom? (text : List Char) : Option (Value × List Char) :=
  match text with
  | '"' :: rest =>
    (string? rest).map fun (s, rest) => ((s.map Value.string).getD .garbled, rest)
  | 't' :: _ => (after? "true".toList text).map (Value.bool true, ·)
  | 'f' :: _ => (after? "false".toList text).map (Value.bool false, ·)
  | 'n' :: _ => (after? "null".toList text).map (Value.null, ·)
  | _ => (numeral? text).map fun (n, rest) => (ofNumeral n text rest, rest)

/-- The object with members, of which some name may be garbled. -/
def ofMembers (members : List (Option String × Value)) : Value :=
  match members.mapM fun (name, v) => name.map (·, v) with
  | some members => .object members
  | none => .garbled

mutual

/-- The value at the start of a text, where blanks may come first. The fuel
    bounds the number of steps. -/
def value? : Nat → List Char → Option (Value × List Char)
  | 0, _ => none
  | fuel + 1, text =>
    match skipBlanks text with
    | '[' :: rest =>
      match skipBlanks rest with
      | ']' :: rest => some (.array [], rest)
      | rest => (items? fuel rest).map fun (items, rest) => (.array items, rest)
    | '\x7b' :: rest =>
      match skipBlanks rest with
      | '\x7d' :: rest => some (.object [], rest)
      | rest => (members? fuel rest).map fun (members, rest) => (ofMembers members, rest)
    | text => atom? text

/-- The items of an array, one at least, up to the closing bracket. -/
def items? : Nat → List Char → Option (List Value × List Char)
  | 0, _ => none
  | fuel + 1, text => do
    let (v, rest) ← value? fuel text
    match skipBlanks rest with
    | ',' :: rest => do
      let (vs, rest) ← items? fuel rest
      return (v :: vs, rest)
    | ']' :: rest => return ([v], rest)
    | _ => none

/-- The members of an object, one at least, up to the closing brace. -/
def members? : Nat → List Char → Option (List (Option String × Value) × List Char)
  | 0, _ => none
  | fuel + 1, text =>
    match skipBlanks text with
    | '"' :: rest => do
      let (name, rest) ← string? rest
      match skipBlanks rest with
      | ':' :: rest => do
        let (v, rest) ← value? fuel rest
        match skipBlanks rest with
        | ',' :: rest => do
          let (members, rest) ← members? fuel rest
          return ((name, v) :: members, rest)
        | '\x7d' :: rest => return ([(name, v)], rest)
        | _ => none
      | _ => none
    | _ => none

end

/-- The value at the start of a text, and what follows it. Every second step
    reads a character, so twice the length is fuel enough. -/
def first? (text : List Char) : Option (Value × List Char) := value? (2 * text.length + 2) text

/-- Nothing but blanks is left of a text. -/
def isRest (text : List Char) : Bool := (skipBlanks text).isEmpty

/-- The value that is the whole of a text. -/
def parse? (text : List Char) : Option Value :=
  match first? text with
  | some (v, rest) => if isRest rest then some v else none
  | none => none

end SecureInbox.Json
