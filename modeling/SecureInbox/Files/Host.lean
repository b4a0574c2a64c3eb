import SecureInbox.Files.Path

/-!
# The host

What a program asks of the system it runs on: files, the environment, standard
input and a clock. A host is a record of actions in a monad, so that a program
can be run on a real system as well as on a model of one
(`SecureInbox.Files.Tree`).
-/

namespace SecureInbox

/-- Why an action on files failed. -/
inductive FileError
  /-- The system refused it, for a reason that has a number. -/
  | system (reason : String) (code : Nat)
  /-- The path holds the character NUL, which ends every path. -/
  | nulInPath
  /-- The file is no text. -/
  | notText
  deriving DecidableEq, Repr

namespace FileError

def notFound : FileError := .system "No such file or directory" 2
def alreadyExists : FileError := .system "File exists" 17
def notDirectory : FileError := .system "Not a directory" 20
def isDirectory : FileError := .system "Is a directory" 21
def nameTooLong : FileError := .system "File name too long" 36

/-- The wording of an error. -/
def message : FileError → String
  | .system reason code => reason ++ " (os error " ++ toString code ++ ")"
  | .nulInPath => "file name contained an unexpected NUL byte"
  | .notText => "stream did not contain valid UTF-8"

end FileError

/-- The actions of a system. -/
structure Host (m : Type → Type) where
  /-- A variable of the environment. -/
  environment : String → m (Option String)
  /-- Everything on standard input. -/
  input : m (Except FileError String)
  /-- The contents of a file. -/
  read : String → m (Except FileError String)
  /-- Replaces the contents of a file, which is made if it is missing. -/
  write : String → String → m (Except FileError Unit)
  /-- Opens a file for a log, which is made if it is missing. -/
  openLog : String → m (Except FileError Unit)
  /-- Something has this path. -/
  isThere : String → m Bool
  /-- A directory has this path. -/
  isDirectory : String → m Bool
  /-- Makes a directory inside another one. -/
  makeDirectory : String → m (Except FileError Unit)
  /-- The nanoseconds since some time in the past. -/
  clock : m Nat

namespace Host

variable {m : Type → Type} [Monad m] (host : Host m)

/-- Makes a directory unless it is there. -/
def ensureDirectory (path : String) : m (Except FileError Unit) := do
  match ← host.makeDirectory path with
  | .ok () => return .ok ()
  | .error e => if ← host.isDirectory path then return .ok () else return .error e

/-- Makes a directory and those it lies in, as far as they are missing. The
    empty path counts as made. The fuel bounds the number of directories. -/
def ensureDirectoriesUpTo : Nat → String → m (Except FileError Unit)
  | 0, _ => return .ok ()
  | fuel + 1, path =>
    if path.isEmpty then return .ok ()
    else do
      match ← host.makeDirectory path with
      | .ok () => return .ok ()
      | .error e =>
        if e ≠ .notFound then
          if ← host.isDirectory path then return .ok () else return .error e
        else
          match Path.parent? path with
          | none => return .error e
          | some parent =>
            match ← ensureDirectoriesUpTo fuel parent with
            | .error e => return .error e
            | .ok () => host.ensureDirectory path

/-- Makes a directory and those it lies in, as far as they are missing. The path
    of each is shorter than that of the one inside. -/
def ensureDirectories (path : String) : m (Except FileError Unit) :=
  host.ensureDirectoriesUpTo (path.length + 1) path

end Host

end SecureInbox
