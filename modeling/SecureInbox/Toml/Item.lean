/-!
# TOML items

A document is a tree of tables. Every table remembers how it came about, since
that decides what may still be added to it: a table under a header of its own,
or inside braces, is closed to dotted names, and a table that was only implied
by a longer header may still get a header.
-/

namespace SecureInbox.Toml

/-- How a table came about. -/
inductive Origin
  /-- It has a header. -/
  | header
  /-- The header of a table inside it names it. -/
  | implied
  /-- A dotted name before a value names it. -/
  | dotted
  /-- It is written in braces. -/
  | braces
  deriving DecidableEq, Repr

/-- What a name stands for. Nothing here needs the value of a real number or of
    a date or time, so their text is kept. -/
inductive Item
  | string (s : String)
  | integer (n : Int)
  | real (literal : String)
  | boolean (b : Bool)
  | moment (literal : String)
  | array (items : List Item)
  | table (origin : Origin) (members : List (String × Item))
  /-- The tables under headers in double brackets. -/
  | tables (rows : List (List (String × Item)))

/-- The members of a table in order. -/
abbrev Members := List (String × Item)

namespace Members

/-- The item under a name. -/
def get? (members : Members) (name : String) : Option Item := members.lookup name

/-- The members with the item under a name replaced. -/
def replace (members : Members) (name : String) (item : Item) : Members :=
  members.map fun m => if m.1 == name then (name, item) else m

/-- The members with a new one at the end. -/
def add? (members : Members) (name : String) (item : Item) : Option Members :=
  if (members.get? name).isSome then none else some (members ++ [(name, item)])

/-- Puts an item under a dotted name. The tables on the way are made if they are
    missing. One that is there already must have been made like this too, or be
    on the way to such a table and only implied. -/
def put? (members : Members) (name : String) (item : Item) : List String → Option Members
  | [] => members.add? name item
  | k :: path =>
    match members.get? k with
    | none => do
      let inner ← put? [] name item path
      members.add? k (.table .dotted inner)
    | some (.table origin inner) =>
      if origin = .dotted ∨ (origin = .implied ∧ path ≠ []) then do
        return members.replace k (.table origin (← put? inner name item path))
      else none
    | some (.tables rows) =>
      match rows.getLast? with
      | some row =>
        if path = [] then none
        else do
          return members.replace k (.tables (rows.dropLast ++ [← put? row name item path]))
      | none => none
    | some _ => none

/-- Changes the table that a header leads to. Tables on the way are implied if
    they are missing, and of several tables under one name the last is meant. -/
def modify? (f : Members → Option Members) (members : Members) : List String → Option Members
  | [] => f members
  | k :: path =>
    match members.get? k with
    | none => do
      let inner ← modify? f [] path
      members.add? k (.table .implied inner)
    | some (.table origin inner) =>
      if origin = .braces then none
      else do return members.replace k (.table origin (← modify? f inner path))
    | some (.tables rows) =>
      match rows.getLast? with
      | some row => do
        return members.replace k (.tables (rows.dropLast ++ [← modify? f row path]))
      | none => none
    | some _ => none

/-- Takes out the table that gets a header, leaving what was implied of it. A
    name that stands for anything else is refused. -/
def open? (members : Members) (name : String) : Option (Members × Members) :=
  match members.get? name with
  | none => some ([], members)
  | some (.table .implied inner) => some (inner, members.filter fun m => m.1 != name)
  | some _ => none

/-- Appends a table to those under one name. -/
def append? (members : Members) (name : String) (row : Members) : Option Members :=
  match members.get? name with
  | none => members.add? name (.tables [row])
  | some (.tables rows) => some (members.replace name (.tables (rows ++ [row])))
  | some _ => none

end Members

/-- A value and the dotted name it stands under: the tables on the way, then
    its own name. -/
structure Pair where
  path : List String
  name : String
  item : Item

/-- Puts several pairs into a table, in order. -/
def Members.putAll? (members : Members) (pairs : List Pair) : Option Members :=
  pairs.foldlM (fun members p => members.put? p.name p.item p.path) members

/-- A header. -/
structure Header where
  path : List String
  name : String
  /-- The header stands in double brackets. -/
  isRow : Bool

/-- A header and the pairs up to the next one. -/
structure Section where
  header : Header
  pairs : List Pair

/-- Adds a section to a document. A table that gets its header moves to the
    end. -/
def Section.addTo? (s : Section) (document : Members) : Option Members :=
  document.modify? (fun parent =>
    if s.header.isRow then do
      let row ← Members.putAll? [] s.pairs
      parent.append? s.header.name row
    else do
      let (start, rest) ← parent.open? s.header.name
      let inner ← start.putAll? s.pairs
      rest.add? s.header.name (.table .header inner)) s.header.path

/-- The document that pairs and sections make. -/
def document? (pairs : List Pair) (sections : List Section) : Option Members := do
  let root ← Members.putAll? [] pairs
  sections.foldlM (fun document s => s.addTo? document) root

end SecureInbox.Toml
