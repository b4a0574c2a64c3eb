import SecureInbox.Message.Flags

/-!
# Faults of key material

Reading or committing key material may fail. A fault never stops a message: it
becomes a diagnostic flag on it.
-/

namespace SecureInbox

/-- What is wrong with key material. The reason is for people to read. -/
inductive KeyError
  | malformedBundle (reason : String)
  | invalidKeyMaterial (reason : String)
  | invalidVersion (version : UInt8)
  | staleKeyMaterial (reason : String)
  | sessionUnavailable (reason : String)
  deriving DecidableEq, Repr

namespace KeyError

/-- The wording of a fault. -/
def message : KeyError → String
  | malformedBundle reason => "Malformed prekey bundle: " ++ reason
  | invalidKeyMaterial reason => "Invalid key material: " ++ reason
  | invalidVersion version => "Unsupported message version " ++ toString version.toNat
  | staleKeyMaterial reason => "Stale key material: " ++ reason
  | sessionUnavailable reason => "No session available for " ++ reason

/-- The flag a fault leaves on a message. -/
def flag : KeyError → Flag
  | malformedBundle _ => .corrupted
  | invalidKeyMaterial _ => .corrupted
  | invalidVersion _ => .invalidVersion
  | staleKeyMaterial _ => .stale
  | sessionUnavailable _ => .stale

end KeyError

end SecureInbox
