import SecureInbox.Config.Printer
import SecureInbox.Config.Reader
import SecureInbox.Files.Host

/-!
# The configuration file

The configuration is loaded from a file and saved to one. Unless another file is
named it is looked for in the directory for data of the user, and when it is
missing there the defaults are used.
-/

namespace SecureInbox

/-- Why a configuration could not be loaded or saved. -/
inductive ConfigFileError
  | unreadable (path : String) (cause : FileError)
  | malformed (path : String) (cause : ConfigError)
  | unwritable (path : String) (cause : FileError)
  deriving DecidableEq, Repr

/-- The wording of an error. -/
def ConfigFileError.message : ConfigFileError → String
  | .unreadable path cause => "Failed to read config file '" ++ path ++ "': " ++ cause.message
  | .malformed path cause =>
    "Failed to parse config file '" ++ path ++ "': TOML parse error: " ++ cause.message
  | .unwritable path cause => "Failed to write config file '" ++ path ++ "': " ++ cause.message

namespace Config

variable {m : Type → Type} [Monad m] (host : Host m)

/-- Loads the configuration from a file. -/
def load (path : String) : m (Except ConfigFileError Config) := do
  match ← host.read path with
  | .error cause => return .error (.unreadable path cause)
  | .ok text =>
    match parse text.toList with
    | .ok c => return .ok c
    | .error cause => return .error (.malformed path cause)

/-- Loads the configuration from a file, if it is there. -/
def loadOrDefault (path : String) : m (Except ConfigFileError Config) := do
  if ← host.isThere path then load host path else return .ok {}

/-- Saves a configuration to a file, whose directory is made if it is missing. -/
def save (c : Config) (path : String) : m (Except ConfigFileError Unit) := do
  if let some directory := Path.parent? path then
    if let .error cause ← host.ensureDirectories directory then
      return .error (.unwritable directory cause)
  match ← host.write path (String.ofList c.render) with
  | .ok () => return .ok ()
  | .error cause => return .error (.unwritable path cause)

/-- The file that a configuration is looked for in, by the home directory and
    the directory for data in the environment. The latter counts only if it is
    absolute. -/
def defaultPath (home dataHome : Option String) : String :=
  let data := match dataHome.filter Path.isAbsolute with
    | some data => some data
    | none => (home.filter (!·.isEmpty)).map fun home => Path.join home ".local/share"
  match data with
  | some data => Path.join (Path.join data "sms-intake") "config.toml"
  | none => "./config.toml"

end Config

end SecureInbox
