import SecureInbox.Session.Store

/-!
# Session stores that fail

Stores to rehearse failure with: one that cannot be reached at all, one whose
commits fail, and one whose calls fail by a script.
-/

namespace SecureInbox.SessionStore

variable {σ : Type}

/-- Whom a question is about; prekeys are those of the receiver itself. -/
def subject : Question → String
  | .stale sender _ => sender
  | .trusted sender _ => sender
  | .prekey _ => "local"

/-- Whose key material is committed. -/
def committer : Commit → String
  | .exchange sender _ _ => sender
  | .bundle sender _ => sender

/-- The store that cannot be reached; its state counts the commits tried. -/
def unreachable : SessionStore Nat where
  ask question attempts := (.error (.sessionUnavailable (subject question)), attempts)
  commit c attempts := (.error (.sessionUnavailable (committer c)), attempts + 1)

/-- The store that answers as the one inside but commits nothing; it counts the
    commits tried. -/
def uncommitting (inside : SessionStore σ) : SessionStore (Nat × σ) where
  ask question state :=
    let (answer, inner) := inside.ask question state.2
    (answer, (state.1, inner))
  commit c state :=
    (.error (.sessionUnavailable ("mock commit failure for " ++ committer c)),
      (state.1 + 1, state.2))

/-- The calls that fail, and how. -/
structure Script where
  stale : Option KeyError := none
  trusted : Option KeyError := none
  prekey : Option KeyError := none
  exchange : Option KeyError := none
  bundle : Option KeyError := none
  deriving DecidableEq

/-- How a question fails. -/
def Script.onQuestion (s : Script) : Question → Option KeyError
  | .stale _ _ => s.stale
  | .trusted _ _ => s.trusted
  | .prekey _ => s.prekey

/-- How a commit fails. -/
def Script.onCommit (s : Script) : Commit → Option KeyError
  | .exchange _ _ _ => s.exchange
  | .bundle _ _ => s.bundle

/-- The store whose calls fail by a script; where the script is silent, the
    store inside is called. -/
def scripted (inside : SessionStore σ) : SessionStore (Script × σ) where
  ask question state :=
    match state.1.onQuestion question with
    | some error => (.error error, state)
    | none =>
      let (answer, inner) := inside.ask question state.2
      (answer, (state.1, inner))
  commit c state :=
    match state.1.onCommit c with
    | some error => (.error error, state)
    | none =>
      let (answer, inner) := inside.commit c state.2
      (answer, (state.1, inner))

end SecureInbox.SessionStore
