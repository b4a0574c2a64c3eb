import SecureInbox.Part.Buffer

/-!
# The configuration

What the owner can choose: whether key exchanges are answered automatically, how
long and how many partial messages are kept, and what is logged where. Every
choice has a default.
-/

namespace SecureInbox

/-- The choices of the owner. -/
structure Config where
  autoRespond : Bool := true
  limits : Limits := {}
  /-- The filter of the log. -/
  level : String := "info"
  /-- The file of the log; without one it goes to standard error. -/
  file : Option String := none
  deriving DecidableEq

/-- The configuration with the defaults and a comment on every choice. -/
def Config.template : String :=
"# sms-intake configuration

[receiver]
# Automatically process trusted key exchanges when the master secret is
# unlocked. When false, key exchanges are stored for manual review.
auto_respond_key_exchange = true

[multipart]
# How long a partially received multipart message is kept
pending_expiry = \"10m\"

# Maximum partial messages buffered at once (oldest evicted first)
max_pending = 64

[logging]
# Log level: trace, debug, info, warn, error (RUST_LOG overrides)
level = \"info\"

# Log file path (optional, logs to stderr if not specified)
# file = \"/var/log/sms-intake.log\"
"

end SecureInbox
