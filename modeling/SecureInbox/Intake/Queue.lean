import SecureInbox.Intake.Desk

/-!
# The decryption queue

Jobs wait here, in order, for the worker that decrypts. When the worker is gone
the queue is closed: what was waiting is lost, and further jobs are dropped.
-/

namespace SecureInbox

/-- The jobs that wait for the worker. -/
structure JobQueue where
  jobs : List DecryptionJob := []
  isOpen : Bool := true
  deriving DecidableEq

namespace JobQueue

/-- Adds a job at the end. -/
def schedule (q : JobQueue) (job : DecryptionJob) : JobQueue :=
  if q.isOpen then { q with jobs := q.jobs ++ [job] } else q

/-- Takes the first job. -/
def receive (q : JobQueue) : Option DecryptionJob × JobQueue :=
  match q.jobs with
  | job :: rest => (some job, { q with jobs := rest })
  | [] => (none, q)

/-- Lets the worker go. -/
def close (_ : JobQueue) : JobQueue := { isOpen := false }

end JobQueue

end SecureInbox
