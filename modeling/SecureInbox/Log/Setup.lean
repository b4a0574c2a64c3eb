import SecureInbox.Config.Basic
import SecureInbox.Files.Host
import SecureInbox.Log.Filter

/-!
# Setting up the log

The filter is made first, and then the file is opened. The environment may give
a filter that goes before the one configured.
-/

namespace SecureInbox

/-- Why the log could not be set up. -/
inductive LogError
  | invalidFilter (filter : String) (cause : LogFilterError)
  | unopened (path : String) (cause : FileError)
  deriving DecidableEq, Repr

/-- The wording of an error. -/
def LogError.message : LogError → String
  | .invalidFilter filter cause => "Invalid log filter '" ++ filter ++ "': " ++ cause.message
  | .unopened path cause => "Failed to open log file '" ++ path ++ "': " ++ cause.message

/-- The variable of the environment that may hold a filter. -/
def LogFilter.variableName : String := "RUST_LOG"

/-- The filter for a configured level. -/
def LogFilter.configured (environment : Option String) (level : String) :
    Except LogError LogFilter :=
  match LogFilter.choose environment level with
  | .ok filter => .ok filter
  | .error cause => .error (.invalidFilter level cause)

/-- Sets up the log and gives its filter. -/
def Host.setUpLog {m : Type → Type} [Monad m] (host : Host m) (c : Config) :
    m (Except LogError LogFilter) := do
  match LogFilter.configured (← host.environment LogFilter.variableName) c.level with
  | .error e => return .error e
  | .ok filter =>
    match c.file with
    | none => return .ok filter
    | some path =>
      match ← host.openLog path with
      | .ok () => return .ok filter
      | .error cause => return .error (.unopened path cause)

end SecureInbox
