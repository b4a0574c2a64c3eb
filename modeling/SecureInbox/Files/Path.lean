import SecureInbox.Text.Pieces

/-!
# Paths

A path is a text with slashes between the names of directories. Slashes at its
end and names that are a single dot do not count, except that a path may begin
with a dot.
-/

namespace SecureInbox.Path

/-- Takes slashes and single dots off the reversed end of a path. The first
    character of the path stays. -/
def trimReversed : List Char → List Char
  | '/' :: c :: rest => trimReversed (c :: rest)
  | '.' :: '/' :: rest => trimReversed ('/' :: rest)
  | text => text

/-- The path without slashes and single dots at its end. -/
def trim (path : List Char) : List Char := (trimReversed path.reverse).reverse

/-- The path of the directory that a path lies in. The root lies in none, and a
    single name lies in the directory with the empty path. -/
def parent? (path : String) : Option String :=
  let trimmed := trim path.toList
  if trimmed = [] ∨ trimmed = ['/'] then none
  else
    let rest := (trimmed.reverse.dropWhile (· != '/')).reverse
    some (String.ofList (trim rest))

/-- The path begins at the root. -/
def isAbsolute (path : String) : Bool := path.toList.head? == some '/'

/-- A path taken from a directory. -/
def join (directory path : String) : String :=
  if isAbsolute path then path
  else if directory.isEmpty || directory.toList.getLast? == some '/' then directory ++ path
  else directory ++ "/" ++ path

/-- The names between the slashes of a path. -/
def names (path : String) : List String := (Text.pieces '/' path.toList).map String.ofList

end SecureInbox.Path
