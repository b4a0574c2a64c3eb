import SecureInbox.Config.File
import SecureInbox.Log.Setup
import SecureInbox.Program.Arguments
import SecureInbox.Program.Report
import SecureInbox.Record.Events

/-!
# Running a request

Every request ends in one of three ways: with some output, with an error, or,
when the arguments make no request, with nothing but a hint at how the program
is used.

Taking in events loads the configuration, sets up the log, reads the events, then
the secrets, and reports on the events; the first of these that fails is the
error.
-/

namespace SecureInbox

/-- Why a request failed. -/
inductive CommandError
  | config (cause : ConfigFileError)
  | log (cause : LogError)
  | unreadable (path : String) (cause : FileError)
  | events (cause : EventsError)
  | secret (cause : SecretError)
  | ingest (cause : IngestError)
  /-- A file would be overwritten. -/
  | occupied (path : String)
  | file (cause : FileError)
  deriving DecidableEq, Repr

/-- The wording of an error. -/
def CommandError.message : CommandError → String
  | .config cause => cause.message
  | .log cause => cause.message
  | .unreadable path cause => "Failed to read '" ++ path ++ "': " ++ cause.message
  | .events cause => cause.message
  | .secret cause => cause.message
  | .ingest cause => cause.message
  | .occupied path => "Config file '" ++ path ++ "' already exists (use --force to overwrite)"
  | .file cause => cause.message

/-- How a request ended. -/
inductive Exit
  | done (output : String)
  | failed (cause : CommandError)
  | misused
  deriving DecidableEq, Repr

namespace Program

/-- The name and the version of the program. -/
def banner : String := "sms-intake 0.1.0\n"

/-- What the program is for. -/
def purpose : String := "Inbound SMS ingestion for encrypted messaging\n"

/-- How the program is used. -/
def usage : String :=
  purpose ++ "\nUsage: sms-intake <COMMAND>\n\nCommands:\n" ++
    "  ingest --fragments <FILE> [--config <FILE>] [--secret <HEX>] [--fallback-secret <HEX>]\n" ++
    "         [--push-type <NUMBER>] [--prekey <NUMBER>]...\n" ++
    "  classify <BODY>\n  default-config [--output <FILE>] [--force]\n  version\n"

variable {m : Type → Type} [Monad m] (host : Host m)

/-- An action whose error is one of a command. -/
def attempt {ε α : Type} (wrap : ε → CommandError) (action : m (Except ε α)) :
    ExceptT CommandError m α :=
  ExceptT.mk do
    match ← action with
    | .ok a => return .ok a
    | .error e => return .error (wrap e)

/-- A result whose error is one of a command. -/
def result {ε α : Type} (wrap : ε → CommandError) (r : Except ε α) : ExceptT CommandError m α :=
  attempt wrap (pure r)

/-- The configuration in a file, or in the default place. -/
def loadConfig : Option String → m (Except ConfigFileError Config)
  | some path => Config.load host path
  | none => do
    let home ← host.environment "HOME"
    let dataHome ← host.environment "XDG_DATA_HOME"
    Config.loadOrDefault host (Config.defaultPath home dataHome)

/-- The text of the events. -/
def readEvents (path : String) : ExceptT CommandError m String :=
  if Path.trim path.toList = ['-'] then attempt .file host.input
  else attempt (.unreadable path) (host.read path)

/-- The secret that is written in hexadecimal, if one is given. -/
def secretOf? : Option String → Except SecretError (Option MasterSecret)
  | none => .ok none
  | some text => (MasterSecret.ofHex text).map some

/-- Takes in events and reports on them. -/
def ingest (o : IngestOptions) : ExceptT CommandError m String := do
  let config ← attempt .config (loadConfig host o.config)
  let _ ← attempt .log (host.setUpLog config)
  let text ← readEvents host o.fragments
  let events ← result .events (eventsOfText text.toList)
  let secret ← result .secret (secretOf? o.secret)
  let fallback ← result .secret (secretOf? o.fallback)
  let timed ← events.mapM fun fragments => do
    return { time := ← host.clock, fragments : TimedEvent }
  let report ← result .ingest
    (Report.ofEvents config { secret, fallback, pushType := o.pushType, prekeys := o.prekeys }
      timed)
  return String.ofList (report.toJson.renderLines 0 ++ ['\n'])

/-- Writes the default configuration to a file. -/
def writeDefaultConfig (path : String) (force : Bool) : ExceptT CommandError m String := do
  if !force && (← host.isThere path) then throw (.occupied path)
  if let some directory := Path.parent? path then
    attempt .file (host.ensureDirectories directory)
  attempt .file (host.write path Config.template)
  return "Wrote default configuration to " ++ path ++ "\n"

/-- The output of a request. -/
def output : Request → ExceptT CommandError m String
  | .ingest options => ingest host options
  | .classify body => return (KindSource.sniffed.kindOf body).displayName ++ "\n"
  | .defaultConfig none _ => return Config.template
  | .defaultConfig (some path) force => writeDefaultConfig host path force
  | .version => return banner ++ purpose
  | .banner => return banner
  | .help => return usage

/-- Runs the request that a line of arguments makes. -/
def run (arguments : List String) : m Exit := do
  match Request.parse arguments with
  | none => return .misused
  | some request =>
    match ← (output host request).run with
    | .ok text => return .done text
    | .error cause => return .failed cause

end Program

end SecureInbox
