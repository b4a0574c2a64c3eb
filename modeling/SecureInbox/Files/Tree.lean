import SecureInbox.Files.Host

/-!
# File trees

A model of a file system: the places of its directories and the contents of its
files. A place is the list of names from the root. A path is followed from the
working directory, or from the root if it begins there, one name after the
other; every name but the last has to be that of a directory. Names and paths
have a greatest length, counted in octets of UTF-8.

A path with a slash at its end is that of a directory. It cannot be opened for
writing, whether anything is there or not.
-/

namespace SecureInbox

/-- The names that lead from the root to a file or directory. -/
abbrev Place := List String

/-- A file system. The root is always a directory. -/
structure FileTree where
  working : Place := []
  directories : List Place := []
  files : List (Place × String) := []

namespace FileTree

/-- A directory is at a place. -/
def isDirectoryAt (t : FileTree) (place : Place) : Bool :=
  place.isEmpty || t.directories.contains place

/-- The contents of the file at a place. -/
def fileAt? (t : FileTree) (place : Place) : Option String := t.files.lookup place

/-- The greatest length of a name. -/
def maxName : Nat := 255

/-- The greatest length of a path. -/
def maxPath : Nat := 4095

/-- The way that a path describes: where it starts, the names to follow from
    there, and whether only a directory will do at its end. -/
structure Route where
  start : Place
  names : List String
  asDirectory : Bool

/-- The way that a path describes, if it is one at all. -/
def route (t : FileTree) (path : String) : Except FileError Route :=
  if path.toList.contains '\x00' then .error .nulInPath
  else if path.isEmpty then .error .notFound
  else if maxPath < path.utf8ByteSize then .error .nameTooLong
  else
    let names := Path.names path
    let kept := (names.reverse.dropWhile (· == "")).reverse
    .ok {
      start := if Path.isAbsolute path then [] else t.working
      names := kept
      asDirectory := kept.length < names.length }

/-- A way to a file or directory, or to nothing yet: its place, and whether only
    a directory will do there. -/
structure Spot where
  place : Place
  asDirectory : Bool

/-- Follows names from a place that is reached. -/
def walk (t : FileTree) (place : Place) : List String → Except FileError Place
  | [] => .ok place
  | name :: rest =>
    if t.isDirectoryAt place then
      if name = "" ∨ name = "." then walk t place rest
      else if name = ".." then walk t place.dropLast rest
      else if maxName < name.utf8ByteSize then .error .nameTooLong
      else walk t (place ++ [name]) rest
    else if (t.fileAt? place).isSome then .error .notDirectory
    else .error .notFound

/-- Follows a path. With a slash at its end only a directory will do. -/
def find (t : FileTree) (path : String) : Except FileError Spot := do
  let route ← t.route path
  return ⟨← t.walk route.start route.names, route.asDirectory⟩

/-- Something has a path. -/
def isThere (t : FileTree) (path : String) : Bool :=
  match t.find path with
  | .ok spot =>
    t.isDirectoryAt spot.place || (!spot.asDirectory && (t.fileAt? spot.place).isSome)
  | .error _ => false

/-- A directory has a path. -/
def isDirectory (t : FileTree) (path : String) : Bool :=
  match t.find path with
  | .ok spot => t.isDirectoryAt spot.place
  | .error _ => false

/-- The contents of a file. -/
def read (t : FileTree) (path : String) : Except FileError String := do
  let spot ← t.find path
  if t.isDirectoryAt spot.place then .error .isDirectory
  else
    match t.fileAt? spot.place with
    | some contents => if spot.asDirectory then .error .notDirectory else .ok contents
    | none => .error .notFound

/-- The place of the file to be opened for writing. Of a path with a slash at
    its end only the way to its last name is followed. -/
def target (t : FileTree) (path : String) : Except FileError Place := do
  let route ← t.route path
  if route.asDirectory then
    let _ ← t.walk route.start (route.names.dropLast ++ ["."])
    .error .isDirectory
  else
    let place ← t.walk route.start route.names
    if t.isDirectoryAt place then .error .isDirectory else .ok place

/-- The tree with the contents of the file at a place replaced. -/
def put (t : FileTree) (place : Place) (contents : String) : FileTree :=
  { t with files := (place, contents) :: t.files.filter fun f => f.1 != place }

/-- Replaces the contents of a file. -/
def write (t : FileTree) (path contents : String) : Except FileError FileTree := do
  return t.put (← t.target path) contents

/-- Makes sure that a file is there. -/
def touch (t : FileTree) (path : String) : Except FileError FileTree := do
  let place ← t.target path
  return t.put place ((t.fileAt? place).getD "")

/-- Makes a directory. -/
def makeDirectory (t : FileTree) (path : String) : Except FileError FileTree := do
  let spot ← t.find path
  if t.isDirectoryAt spot.place || (t.fileAt? spot.place).isSome then .error .alreadyExists
  else return { t with directories := spot.place :: t.directories }

end FileTree

/-- A model of a system. Its clock moves on by a fixed step whenever it is
    read. -/
structure ModelHost where
  tree : FileTree := {}
  settings : List (String × String) := []
  input : String := ""
  time : Nat := 0
  step : Nat := 1

namespace ModelHost

/-- Changes the files, if that can be done. -/
def change (f : FileTree → Except FileError FileTree) : StateM ModelHost (Except FileError Unit) :=
  fun h =>
    match f h.tree with
    | .ok tree => (.ok (), { h with tree })
    | .error e => (.error e, h)

/-- The actions of the model. -/
def host : Host (StateM ModelHost) where
  environment name := do return (← get).settings.lookup name
  input := do return .ok (← get).input
  read path := do return (← get).tree.read path
  write path contents := change fun t => t.write path contents
  openLog path := change fun t => t.touch path
  isThere path := do return (← get).tree.isThere path
  isDirectory path := do return (← get).tree.isDirectory path
  makeDirectory path := change fun t => t.makeDirectory path
  clock := modifyGet fun h => (h.time, { h with time := h.time + h.step })

end ModelHost

end SecureInbox
