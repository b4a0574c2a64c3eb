import Mathlib.Data.List.Nodup
import SecureInbox.Mailbox.Memory

/-!
# Numbers in a mailbox

Messages are numbered as they come, and all messages of one sender, and no others,
are in the sender's thread (`Mailbox.IsNumbered`). A message that is inserted may
open a thread for its sender, and changes no other (`Mailbox.threadOf?_insert`).

The number of a thread that is opened depends on the size of the table of threads only.
It is one that no other thread has because the table holds the numbers from 1 to its size,
each of them once.
-/

namespace SecureInbox.Mailbox

variable {box : Mailbox} {placement : Placement} {m : Message} {sender other : String}
  {thread : ThreadId}

/-- The mailbox after a message was inserted. -/
abbrev after (box : Mailbox) (placement : Placement) (m : Message) : Mailbox :=
  (box.insert placement m).2

/-- The identity of the next message of a sender. -/
def nextIdentity (box : Mailbox) (sender : String) : StoredIdentity where
  message := ⟨box.lastMessage + 1⟩
  thread := (box.threads.getOrSet sender ⟨box.threads.length + 1⟩).1

/-- The record of a message that comes next. -/
def nextRecord (box : Mailbox) (placement : Placement) (m : Message) : StoredRecord where
  identity := box.nextIdentity m.sender
  sender := m.sender
  body := m.body
  timestamp := m.timestamp
  kind := m.kind
  flags := m.flags
  inbox := placement.inbox

theorem records_insert :
    (box.after placement m).records = box.records ++ [box.nextRecord placement m] := rfl

theorem lastMessage_insert : (box.after placement m).lastMessage = box.lastMessage + 1 := rfl

/-! ## Threads -/

/-- The next message of a sender goes into the thread there is. -/
theorem thread_nextIdentity (h : box.threadOf? sender = some thread) :
    (box.nextIdentity sender).thread = thread := by
  rw [nextIdentity, Table.getOrSet_of_get?_eq_some h]

/-- A sender without a thread gets the one after as many as there are. -/
theorem thread_nextIdentity_of_new (h : box.threadOf? sender = none) :
    (box.nextIdentity sender).thread = ⟨box.threads.length + 1⟩ := by
  rw [nextIdentity, Table.getOrSet_of_get?_eq_none h]

/-- Inserting a message opens a thread for its sender, if there is none yet. -/
theorem threads_insert (box : Mailbox) (placement : Placement) (m : Message) :
    (box.after placement m).threads =
      if (box.threadOf? m.sender).isSome then box.threads
      else box.threads ++ [(m.sender, ⟨box.threads.length + 1⟩)] := by
  have hthreads : (box.after placement m).threads =
      (box.threads.getOrSet m.sender ⟨box.threads.length + 1⟩).2 := rfl
  rw [hthreads]
  obtain hnone | ⟨thread, hthread⟩ := Option.eq_none_or_eq_some (box.threadOf? m.sender)
  · rw [hnone, Table.getOrSet_of_get?_eq_none hnone]
    rfl
  · rw [hthread, Table.getOrSet_of_get?_eq_some hthread]
    rfl

theorem length_threads_le (box : Mailbox) (placement : Placement) (m : Message) :
    box.threads.length ≤ (box.after placement m).threads.length := by
  rw [threads_insert]
  split <;> simp

/-- The sender of a message that is inserted has a thread, and no one else gets one. -/
theorem threadOf?_insert (box : Mailbox) (placement : Placement) (m : Message) (sender : String) :
    (box.after placement m).threadOf? sender =
      if sender = m.sender then some (box.nextIdentity m.sender).thread
      else box.threadOf? sender := by
  simp only [eq_comm (a := sender)]
  exact box.threads.get?_getOrSet m.sender sender _

/-- A thread there is belongs to no one else after an insertion. -/
theorem threadOf?_insert_eq_some (h : thread.val ≤ box.threads.length) :
    (box.after placement m).threadOf? sender = some thread ↔
      box.threadOf? sender = some thread := by
  rw [threadOf?_insert]
  split
  · rename_i hsender
    subst hsender
    obtain hnone | ⟨found, hfound⟩ := Option.eq_none_or_eq_some (box.threadOf? m.sender)
    · -- the thread that is opened is numbered higher than all there were
      rw [hnone, thread_nextIdentity_of_new hnone, Option.some.injEq]
      refine ⟨fun heq => ?_, nofun⟩
      rw [← heq] at h
      exact absurd h (Nat.not_succ_le_self _)
    · rw [thread_nextIdentity hfound, hfound]
  · rfl

/-! ## The records of one sender -/

/-- The records of a sender's messages, oldest first. -/
def recordsOf (box : Mailbox) (sender : String) : List StoredRecord :=
  box.records.filter (·.sender == sender)

theorem recordsOf_insert (h : m.sender = sender) :
    (box.after placement m).recordsOf sender =
      box.recordsOf sender ++ [box.nextRecord placement m] := by
  simp [recordsOf, records_insert, nextRecord, h]

theorem recordsOf_insert_of_ne (h : m.sender ≠ sender) :
    (box.after placement m).recordsOf sender = box.recordsOf sender := by
  simp [recordsOf, records_insert, nextRecord, h]

/-! ## Numbers -/

/-- The messages are numbered from 1, and so are the threads, in the order in which they
    were opened; each message is in the thread of its sender. -/
structure IsNumbered (box : Mailbox) : Prop where
  lastMessage : box.lastMessage = box.records.length
  messages : box.records.map (·.identity.message.val) = List.range' 1 box.records.length
  numbers : box.threads.map (·.2.val) = List.range' 1 box.threads.length
  threads : ∀ r ∈ box.records, box.threadOf? r.sender = some r.identity.thread

theorem isNumbered_empty : IsNumbered {} where
  lastMessage := rfl
  messages := rfl
  numbers := rfl
  threads := nofun

namespace IsNumbered

theorem insert (h : box.IsNumbered) (placement : Placement) (m : Message) :
    (box.after placement m).IsNumbered where
  lastMessage := by
    rw [lastMessage_insert, h.lastMessage, records_insert, List.length_append]
    rfl
  messages := by
    rw [records_insert, List.map_append, h.messages, List.length_append, List.length_singleton,
      List.range'_concat]
    simp [nextRecord, nextIdentity, h.lastMessage, Nat.add_comm]
  numbers := by
    rw [threads_insert]
    split
    · exact h.numbers
    · rw [List.map_append, h.numbers, List.length_append, List.length_singleton,
        List.range'_concat]
      simp [Nat.add_comm]
  threads r hr := by
    rw [threadOf?_insert]
    rcases List.mem_append.1 hr with hr | hr
    · split
      · rename_i hsender
        rw [← hsender, thread_nextIdentity (h.threads r hr)]
      · exact h.threads r hr
    · cases List.mem_singleton.1 hr
      exact if_pos rfl

/-- The numbers of the threads are those up to how many there are. -/
theorem mem_threads_iff (h : box.IsNumbered) (n : Nat) :
    (∃ entry ∈ box.threads, entry.2.val = n) ↔ 1 ≤ n ∧ n ≤ box.threads.length := by
  rw [← List.mem_map, h.numbers, List.mem_range'_1]
  omega

/-- The thread of a sender is numbered like one of those in the table. -/
theorem one_le_and_le_of_threadOf? (h : box.IsNumbered)
    (hthread : box.threadOf? sender = some thread) :
    1 ≤ thread.val ∧ thread.val ≤ box.threads.length :=
  (h.mem_threads_iff _).1 ⟨_, Table.mem_of_get? hthread, rfl⟩

/-- No two senders share a thread. -/
theorem threadOf?_inj (h : box.IsNumbered) (hsender : box.threadOf? sender = some thread)
    (hother : box.threadOf? other = some thread) : sender = other := by
  have hnodup : (box.threads.map (·.2.val)).Nodup := h.numbers ▸ List.nodup_range'
  exact congrArg Prod.fst (List.inj_on_of_nodup_map hnodup (Table.mem_of_get? hsender)
    (Table.mem_of_get? hother) rfl)

end IsNumbered

/-- What the messages of one sender are called, oldest first. -/
def identitiesOf (box : Mailbox) (sender : String) : List StoredIdentity :=
  (box.recordsOf sender).map (·.identity)

theorem IsNumbered.nodup_identitiesOf (h : box.IsNumbered) (sender : String) :
    ((box.identitiesOf sender).map (·.message)).Nodup := by
  have hall : (box.records.map (·.identity.message.val)).Nodup :=
    h.messages ▸ List.nodup_range'
  rw [identitiesOf, List.map_map]
  refine List.Nodup.of_map MessageId.val ?_
  rw [List.map_map]
  exact hall.sublist (List.filter_sublist.map _)

/-- All messages of a sender are in one thread. -/
theorem IsNumbered.thread_eq (h : box.IsNumbered) {identity : StoredIdentity}
    (hidentity : identity ∈ box.identitiesOf sender) :
    box.threadOf? sender = some identity.thread := by
  obtain ⟨r, hr, rfl⟩ := List.mem_map.1 hidentity
  obtain ⟨hr, hsender⟩ := List.mem_filter.1 hr
  rw [← eq_of_beq hsender]
  exact h.threads r hr

end SecureInbox.Mailbox
