import SecureInbox.Table

/-!
# Sender locks

Work on the session of one sender is done under a lock, and the locks of
different senders do not get in each other's way. A *request* for the lock of a
sender holds it at once when it is free; otherwise it waits, first come, first
served, until the holder and those before it are gone. A request ends when it is
dropped, whether it holds the lock or still waits for it.

The *register* has an entry for a sender with the lock to be taken. An entry
that no request uses any more is idle. Idle entries are pruned by the next
request, before it looks for its own entry, so a sender may get a new lock where
an old one was pruned. Locks are numbered to tell them apart.
-/

namespace SecureInbox

/-- A request for the lock of a sender. -/
structure LockRequest where
  /-- The name of the request. -/
  name : String
  sender : String
  /-- The number of the lock that it asks for. -/
  lock : Nat
  deriving DecidableEq, Repr

/-- The locks of all senders. -/
structure SenderLocks where
  /-- The register of locks. -/
  entries : Table Nat := []
  /-- The requests that hold their lock, in the order they got it. -/
  held : List LockRequest := []
  /-- The requests that wait, in the order they came. -/
  waiting : List LockRequest := []
  /-- The number of the next lock to be made. -/
  fresh : Nat := 0
  deriving DecidableEq

namespace SenderLocks

/-- Some request uses a lock. -/
def isUsed (s : SenderLocks) (lock : Nat) : Bool :=
  s.held.any (·.lock == lock) || s.waiting.any (·.lock == lock)

/-- Some request holds a lock. -/
def isHeld (s : SenderLocks) (lock : Nat) : Bool := s.held.any (·.lock == lock)

/-- The locks without idle entries. -/
def prune (s : SenderLocks) : SenderLocks :=
  { s with entries := s.entries.filter fun entry => s.isUsed entry.2 }

/-- The locks with an entry for a sender, and the lock in it. -/
def enter (s : SenderLocks) (sender : String) : Nat × SenderLocks :=
  match s.entries.get? sender with
  | some lock => (lock, s)
  | none => (s.fresh, { s with entries := s.entries.set sender s.fresh, fresh := s.fresh + 1 })

/-- The locks after a request has come: it holds its lock if that is free and
    waits otherwise. -/
def enqueue (s : SenderLocks) (r : LockRequest) : SenderLocks :=
  if s.isHeld r.lock then { s with waiting := s.waiting ++ [r] }
  else { s with held := s.held ++ [r] }

/-- Asks for the lock of a sender. -/
def request (s : SenderLocks) (name sender : String) : SenderLocks :=
  let (lock, s) := s.prune.enter sender
  s.enqueue ⟨name, sender, lock⟩

/-- Hands a lock that has become free to the first request that waits for
    it. -/
def handOver (s : SenderLocks) (lock : Nat) : SenderLocks :=
  match s.waiting.find? (·.lock == lock) with
  | some r => { s with held := s.held ++ [r], waiting := s.waiting.erase r }
  | none => s

/-- Ends a request. One that is not known changes nothing. -/
def drop (s : SenderLocks) (name : String) : SenderLocks :=
  match s.held.find? (·.name == name) with
  | some r => { s with held := s.held.erase r }.handOver r.lock
  | none => { s with waiting := s.waiting.eraseP (·.name == name) }

end SenderLocks

end SecureInbox
