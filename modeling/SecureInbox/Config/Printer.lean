import SecureInbox.Config.Basic
import SecureInbox.Duration.Printer
import SecureInbox.Toml.Printer

/-!
# Writing the configuration

All sections are written, with every choice that is made.
-/

namespace SecureInbox.Config

/-- A section with its lines. -/
def sectionText (name : String) (lines : List (String × List Char)) : List Char :=
  '[' :: name.toList ++ "]\n".toList ++
    lines.flatMap fun (name, value) => name.toList ++ " = ".toList ++ value ++ ['\n']

/-- The text of a configuration. -/
def render (c : Config) : List Char :=
  sectionText "receiver"
    [("auto_respond_key_exchange", (if c.autoRespond then "true" else "false").toList)] ++ '\n' ::
  sectionText "multipart"
    [("pending_expiry", Toml.renderString c.limits.expiry.render),
      ("max_pending", Nat.toDigits 10 c.limits.maxPending)] ++ '\n' ::
  sectionText "logging"
    (("level", Toml.renderString c.level.toList) ::
      match c.file with
      | some file => [("file", Toml.renderString file.toList)]
      | none => [])

end SecureInbox.Config
