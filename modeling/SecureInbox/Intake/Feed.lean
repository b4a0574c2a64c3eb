/-!
# Feeds

A *feed* hands events on to any number of readers. It keeps the latest events
only, up to its capacity. A reader stands at a position and is given the events
from there on, in order; one that falls behind by more than the capacity is told
how many events it has *missed* and goes on with the oldest event kept.

* `Feed.drain` reads until nothing is left.
-/

namespace SecureInbox

/-- A feed of events. -/
structure Feed (α : Type) where
  capacity : Nat
  /-- Every event published so far. Those before the latest `capacity` are never
      handed out again. -/
  published : List α := []

/-- What a reader is given at once. -/
inductive Delivery (α : Type)
  | event (event : α)
  /-- So many events are gone. -/
  | missed (n : Nat)
  deriving DecidableEq, Repr

namespace Feed

variable {α : Type}

/-- The least power of two that is not below a number. -/
def roundUp (n : Nat) : Nat := if n ≤ 1 then 1 else Nat.pow 2 ((n - 1).log2 + 1)

/-- The feed that keeps at least so many events; the capacity is a power of
    two. -/
def ofCapacity (n : Nat) : Feed α := { capacity := roundUp n }

/-- The feed after one more event. -/
def publish (f : Feed α) (event : α) : Feed α := { f with published := f.published ++ [event] }

/-- The position after the latest event, where a new reader starts. -/
def newest (f : Feed α) : Nat := f.published.length

/-- The position of the oldest event kept. -/
def oldest (f : Feed α) : Nat := f.published.length - f.capacity

/-- What a reader at a position is given, and its next position. -/
def receive? (f : Feed α) (position : Nat) : Option (Delivery α × Nat) :=
  if position < f.oldest then some (.missed (f.oldest - position), f.oldest)
  else (f.published[position]?).map fun event => (.event event, position + 1)

/-- The next position is further on, and not beyond the end. -/
theorem receive?_progress {f : Feed α} {position next : Nat} {d : Delivery α}
    (h : f.receive? position = some (d, next)) : position < next ∧ next ≤ f.newest := by
  unfold receive? at h
  split at h
  · simp only [Option.some.injEq, Prod.mk.injEq] at h
    simp only [oldest, newest] at *
    omega
  · obtain ⟨event, hget, heq⟩ := Option.map_eq_some_iff.1 h
    have := (List.getElem?_eq_some_iff.1 hget).1
    simp only [Prod.mk.injEq] at heq
    simp only [newest]
    omega

/-- Everything a reader at a position is given until nothing is left. -/
def drain (f : Feed α) (position : Nat) : List (Delivery α) :=
  match h : f.receive? position with
  | none => []
  | some (d, next) =>
    have := receive?_progress h
    d :: f.drain next
termination_by f.newest - position
decreasing_by omega

end Feed

/-- The events among what a reader was given. -/
def Delivery.events {α : Type} (ds : List (Delivery α)) : List α :=
  ds.filterMap fun
    | .event e => some e
    | .missed _ => none

/-- How many events a reader has missed in all. -/
def Delivery.missedCount {α : Type} (ds : List (Delivery α)) : Nat :=
  ds.foldr (fun
    | .event _, total => total
    | .missed n, total => n + total) 0

end SecureInbox
