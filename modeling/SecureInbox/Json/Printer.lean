import SecureInbox.Json.Value

/-!
# Writing JSON

Values are written in one line without blanks (`render`), or over several lines
with two blanks of indentation for every level (`renderLines`), where an empty
array or object still takes one line only.
-/

namespace SecureInbox.Json

/-- The digit of a number below sixteen. -/
def hexDigit (n : Nat) : Char := if n < 10 then Char.ofNat (48 + n) else Char.ofNat (87 + n)

/-- How a character stands inside a string. -/
def escape (c : Char) : List Char :=
  if c = '"' then ['\\', '"']
  else if c = '\\' then ['\\', '\\']
  else if c = '\x08' then ['\\', 'b']
  else if c = '\x0c' then ['\\', 'f']
  else if c = '\n' then ['\\', 'n']
  else if c = '\r' then ['\\', 'r']
  else if c = '\t' then ['\\', 't']
  else if c.toNat < 32 then
    ['\\', 'u', '0', '0', hexDigit (c.toNat / 16), hexDigit (c.toNat % 16)]
  else [c]

/-- A string between its quotes. -/
def quoted (s : String) : List Char := '"' :: (s.toList.flatMap escape ++ ['"'])

namespace Value

/-- The texts of the values that are no array and no object; those are left
    empty. -/
def atom : Value → List Char
  | .null => "null".toList
  | .bool true => "true".toList
  | .bool false => "false".toList
  | .integer n => (toString n).toList
  | .real literal => literal.toList
  | .string s => quoted s
  | .garbled => "null".toList
  | _ => []

mutual

/-- A value in one line. -/
def render : Value → List Char
  | .array items => '[' :: (renderItems items ++ [']'])
  | .object members => '\x7b' :: (renderMembers members ++ ['\x7d'])
  | v => v.atom

/-- The items of an array with commas between them. -/
def renderItems : List Value → List Char
  | [] => []
  | [v] => v.render
  | v :: rest => v.render ++ ',' :: renderItems rest

/-- The members of an object with commas between them. -/
def renderMembers : List (String × Value) → List Char
  | [] => []
  | [(name, v)] => quoted name ++ ':' :: v.render
  | (name, v) :: rest => quoted name ++ ':' :: v.render ++ ',' :: renderMembers rest

end

/-- The start of a line at a level of indentation. -/
def newLine (level : Nat) : List Char := '\n' :: List.replicate (2 * level) ' '

mutual

/-- A value over several lines; the lines after the first one are indented by
    at least `level`. -/
def renderLines (level : Nat) : Value → List Char
  | .array [] => ['[', ']']
  | .array items => '[' :: (itemLines (level + 1) items ++ newLine level ++ [']'])
  | .object [] => ['\x7b', '\x7d']
  | .object members =>
    '\x7b' :: (memberLines (level + 1) members ++ newLine level ++ ['\x7d'])
  | v => v.atom

/-- The items of an array, each on lines of its own. -/
def itemLines (level : Nat) : List Value → List Char
  | [] => []
  | [v] => newLine level ++ v.renderLines level
  | v :: rest => newLine level ++ v.renderLines level ++ ',' :: itemLines level rest

/-- The members of an object, each on lines of its own. -/
def memberLines (level : Nat) : List (String × Value) → List Char
  | [] => []
  | [(name, v)] => newLine level ++ quoted name ++ ": ".toList ++ v.renderLines level
  | (name, v) :: rest =>
    newLine level ++ quoted name ++ ": ".toList ++ v.renderLines level ++
      ',' :: memberLines level rest

end

end Value

end SecureInbox.Json
