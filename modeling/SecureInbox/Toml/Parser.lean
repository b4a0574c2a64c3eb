import SecureInbox.Toml.Scalar

/-!
# Reading TOML

The grammar of TOML 1.0. A text is cut into pairs and headers, one on a line;
what the names in them mean for each other is settled afterwards by
`document?`.

Arrays and braces may be nested, and names dotted, fewer than 80 levels deep.
-/

namespace SecureInbox.Toml

/-- The levels of nesting, and of names, that are too many. -/
def maxDepth : Nat := 80

/-- The characters of names without quotes. -/
def isBare (c : Char) : Bool := c.isAlphanum || c == '-' || c == '_'

/-- One name of a dotted name. -/
def simpleName? (text : List Char) : Option (String × List Char) :=
  match text with
  | '"' :: rest => (quoted? rest).map fun (cs, rest) => (String.ofList cs, rest)
  | '\'' :: rest => (literal? rest).map fun (cs, rest) => (String.ofList cs, rest)
  | _ =>
    match text.span isBare with
    | ([], _) => none
    | (cs, rest) => some (String.ofList cs, rest)

/-- A dotted name, with blanks around its parts. The fuel bounds the number of
    names. -/
def names? : Nat → List Char → Option (List String × List Char)
  | 0, _ => none
  | fuel + 1, text => do
    let (name, rest) ← simpleName? (skipBlanks text)
    match skipBlanks rest with
    | '.' :: rest =>
      let (more, rest) ← names? fuel rest
      return (name :: more, rest)
    | rest => return ([name], rest)

/-- The names before the last one, and the last one. -/
def splitLast? (names : List String) : Option (List String × String) :=
  names.getLast?.map (names.dropLast, ·)

/-- A dotted name of fewer than `maxDepth` names. -/
def dottedName? (text : List Char) : Option ((List String × String) × List Char) := do
  let (names, rest) ← names? (text.length + 1) text
  if names.length < maxDepth then return (← splitLast? names, rest) else none

/-- The value at the start of a text that holds no other values. -/
def scalar? (text : List Char) : Option (Item × List Char) :=
  match text with
  | '"' :: _ | '\'' :: _ => (string? text).map fun (s, rest) => (.string s, rest)
  | 't' :: 'r' :: 'u' :: 'e' :: rest => some (.boolean true, rest)
  | 'f' :: 'a' :: 'l' :: 's' :: 'e' :: rest => some (.boolean false, rest)
  | _ => number? text

mutual

/-- The value at the start of a text, nested at a depth. The fuel bounds the
    number of steps. -/
def value? : Nat → Nat → List Char → Option (Item × List Char)
  | 0, _, _ => none
  | fuel + 1, depth, text =>
    match text with
    | '[' :: rest =>
      if depth + 1 < maxDepth then
        match skipGaps false rest with
        | ']' :: rest => some (.array [], rest)
        | rest => (items? fuel (depth + 1) rest).map fun (items, rest) => (.array items, rest)
      else none
    | '\x7b' :: rest =>
      if depth + 1 < maxDepth then
        match skipBlanks rest with
        | '\x7d' :: rest => some (.table .braces [], rest)
        | rest => do
          let (pairs, rest) ← pairs? fuel (depth + 1) rest
          return (.table .braces (← Members.putAll? [] pairs), rest)
      else none
    | text => scalar? text

/-- The items of an array, one at least, up to the closing bracket, before which
    a comma may stand. -/
def items? : Nat → Nat → List Char → Option (List Item × List Char)
  | 0, _, _ => none
  | fuel + 1, depth, text => do
    let (v, rest) ← value? fuel depth text
    match skipGaps false rest with
    | ',' :: rest =>
      match skipGaps false rest with
      | ']' :: rest => return ([v], rest)
      | rest =>
        let (vs, rest) ← items? fuel depth rest
        return (v :: vs, rest)
    | ']' :: rest => return ([v], rest)
    | _ => none

/-- The pairs in braces, one at least, up to the closing brace. -/
def pairs? : Nat → Nat → List Char → Option (List Pair × List Char)
  | 0, _, _ => none
  | fuel + 1, depth, text => do
    let ((path, name), rest) ← dottedName? text
    let rest ← after? '=' rest
    let (item, rest) ← value? fuel depth (skipBlanks rest)
    match skipBlanks rest with
    | ',' :: rest =>
      let (more, rest) ← pairs? fuel depth rest
      return (⟨path, name, item⟩ :: more, rest)
    | '\x7d' :: rest => return ([⟨path, name, item⟩], rest)
    | _ => none

end

/-- A pair, with the rest of its line. -/
def pair? (text : List Char) : Option (Pair × List Char) := do
  let ((path, name), rest) ← dottedName? text
  let rest ← after? '=' rest
  let (item, rest) ← value? (2 * text.length + 2) 0 (skipBlanks rest)
  return (⟨path, name, item⟩, ← endOfLine? rest)

/-- A header, with the rest of its line. -/
def header? : List Char → Option (Header × List Char)
  | '[' :: '[' :: rest => do
    let ((path, name), rest) ← dottedName? rest
    let rest ← after? ']' (← after? ']' rest)
    return (⟨path, name, true⟩, ← endOfLine? rest)
  | '[' :: rest => do
    let ((path, name), rest) ← dottedName? rest
    let rest ← after? ']' rest
    return (⟨path, name, false⟩, ← endOfLine? rest)
  | _ => none

/-- The pairs before the first header, and the sections. The fuel bounds the
    number of lines. -/
def statements? : Nat → List Char → Option (List Pair × List Section)
  | 0, _ => none
  | fuel + 1, text =>
    match skipBlanks text with
    | [] => some ([], [])
    | '[' :: rest => do
      let (header, rest) ← header? ('[' :: rest)
      let (pairs, sections) ← statements? fuel rest
      return ([], ⟨header, pairs⟩ :: sections)
    | c :: rest =>
      if c = '#' ∨ c = '\n' ∨ c = '\r' then do
        statements? fuel (← endOfLine? (c :: rest))
      else do
        let (pair, rest) ← pair? (c :: rest)
        let (pairs, sections) ← statements? fuel rest
        return (pair :: pairs, sections)

/-- The text without a byte order mark. -/
def dropMark : List Char → List Char
  | '\uFEFF' :: rest => rest
  | text => text

/-- The document a text stands for. Every line has a character at least, so the
    length bounds their number. -/
def parse? (text : List Char) : Option Members := do
  let (pairs, sections) ← statements? (text.length + 1) (dropMark text)
  document? pairs sections

end SecureInbox.Toml
