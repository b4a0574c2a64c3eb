import Mathlib.Data.List.Dedup
import Mathlib.Data.List.Induction
import SecureInbox.Proofs.Mailbox.Memory

/-!
# The order of numbers in a mailbox

Whatever is inserted into a mailbox that was empty, every message gets the next number and
one record at the end, and the records before it stay as they are. The threads are
numbered in the order in which their senders first appeared: a sender who is new gets the
number after all that are in use (`Mailbox.thread_nextIdentity_of_new`).

That the threads in the table are in use, and no others, rests on the senders in it: there
is no one twice among them, and they are those of the records (`Mailbox.IsIndexed`). So the
size of the table is the number of the senders that have written.
`Mailbox.numbersInOrder` puts it together.
-/

namespace SecureInbox.Mailbox

variable {box : Mailbox} {placement : Placement} {m : Message} {sender : String}
  {thread : ThreadId}

/-! ## The senders on file -/

/-- The senders with a thread, in the order in which they got one. -/
def senders (box : Mailbox) : List String := box.threads.map Prod.fst

/-- The senders on file are those of the records, each of them once. -/
structure IsIndexed (box : Mailbox) : Prop where
  nodup : box.senders.Nodup
  mem_senders : ∀ sender, sender ∈ box.senders ↔ ∃ r ∈ box.records, r.sender = sender

/-- A sender without a thread is put on file after the others. -/
theorem senders_insert (box : Mailbox) (placement : Placement) (m : Message) :
    (box.after placement m).senders =
      if (box.threadOf? m.sender).isSome then box.senders else box.senders ++ [m.sender] := by
  rw [senders, threads_insert]
  split
  · rfl
  · exact List.map_append

/-- A sender with a thread is on file. -/
theorem mem_senders_of_threadOf? (h : box.threadOf? sender = some thread) :
    sender ∈ box.senders :=
  List.mem_map.2 ⟨_, Table.mem_of_get? h, rfl⟩

namespace IsIndexed

theorem empty : IsIndexed {} where
  nodup := .nil
  mem_senders := by simp [senders]

/-- A sender is on file just if there is a thread for them. -/
theorem isSome_threadOf?_iff (h : box.IsIndexed) :
    (box.threadOf? sender).isSome ↔ sender ∈ box.senders := by
  constructor
  · intro hsome
    obtain ⟨thread, hthread⟩ := Option.isSome_iff_exists.1 hsome
    exact mem_senders_of_threadOf? hthread
  · intro hmem
    obtain ⟨⟨_, thread⟩, hentry, rfl⟩ := List.mem_map.1 hmem
    exact Option.isSome_iff_exists.2 ⟨thread, Table.get?_of_mem h.nodup hentry⟩

theorem insert (h : box.IsIndexed) (placement : Placement) (m : Message) :
    (box.after placement m).IsIndexed where
  nodup := by
    rw [senders_insert]
    split
    · exact h.nodup
    · rename_i hnew
      rw [h.isSome_threadOf?_iff] at hnew
      exact List.nodup_append.2 ⟨h.nodup, List.nodup_singleton _,
        fun other hother last hlast heq => hnew (List.mem_singleton.1 hlast ▸ heq ▸ hother)⟩
  mem_senders other := by
    have hrecords : (∃ r ∈ (box.after placement m).records, r.sender = other) ↔
        other ∈ box.senders ∨ other = m.sender := by
      rw [h.mem_senders, records_insert]
      simp [or_and_right, exists_or, nextRecord, eq_comm]
    rw [hrecords, senders_insert]
    split
    · rename_i hsome
      rw [h.isSome_threadOf?_iff] at hsome
      exact ⟨.inl, fun hmem => hmem.elim id fun heq => heq ▸ hsome⟩
    · rw [List.mem_append, List.mem_singleton]

/-- A sender has a thread if there is a record of theirs, and it is in that thread. -/
theorem threadOf?_eq_some (h : box.IsIndexed) (hnumbered : box.IsNumbered) :
    box.threadOf? sender = some thread ↔
      ∃ r ∈ box.records, r.sender = sender ∧ r.identity.thread = thread := by
  constructor
  · intro hthread
    obtain ⟨r, hr, rfl⟩ := (h.mem_senders sender).1 (mem_senders_of_threadOf? hthread)
    exact ⟨r, hr, rfl, Option.some.inj ((hnumbered.threads r hr).symm.trans hthread)⟩
  · rintro ⟨r, hr, rfl, rfl⟩
    exact hnumbered.threads r hr

/-- The threads in use are numbered from 1 without a gap. -/
theorem exists_thread_iff (h : box.IsIndexed) (hnumbered : box.IsNumbered) (n : Nat) :
    (∃ r ∈ box.records, r.identity.thread.val = n) ↔ 1 ≤ n ∧ n ≤ box.threads.length := by
  rw [← hnumbered.mem_threads_iff]
  constructor
  · rintro ⟨r, hr, rfl⟩
    exact ⟨_, Table.mem_of_get? (hnumbered.threads r hr), rfl⟩
  · rintro ⟨⟨sender, thread⟩, hentry, rfl⟩
    obtain ⟨r, hr, -, rfl⟩ := (h.threadOf?_eq_some hnumbered).1
      (Table.get?_of_mem h.nodup hentry)
    exact ⟨r, hr, rfl⟩

end IsIndexed

/-! ## Insertions -/

/-- A message that is inserted, and where it is put. -/
structure Insertion where
  placement : Placement
  message : Message

/-- The mailbox after these were inserted, the first one into an empty mailbox. -/
def afterAll (inserts : List Insertion) : Mailbox :=
  inserts.foldl (fun box i => box.after i.placement i.message) {}

variable {inserts : List Insertion}

theorem afterAll_concat (inserts : List Insertion) (i : Insertion) :
    afterAll (inserts ++ [i]) = (afterAll inserts).after i.placement i.message := by
  simp [afterAll]

/-- What is kept whenever a message is inserted holds after any insertions. -/
theorem afterAll_induction {P : Mailbox → Prop} (hempty : P {})
    (hinsert : ∀ {box}, P box → ∀ placement m, P (box.after placement m))
    (inserts : List Insertion) : P (afterAll inserts) := by
  induction inserts using List.reverseRecOn with
  | nil => exact hempty
  | append_singleton inserts i ih =>
    rw [afterAll_concat]
    exact hinsert ih _ _

theorem isNumbered_afterAll (inserts : List Insertion) : (afterAll inserts).IsNumbered :=
  afterAll_induction isNumbered_empty IsNumbered.insert inserts

theorem isIndexed_afterAll (inserts : List Insertion) : (afterAll inserts).IsIndexed :=
  afterAll_induction .empty IsIndexed.insert inserts

/-- There is one record for every message, in order. -/
theorem map_sender_afterAll (inserts : List Insertion) :
    (afterAll inserts).records.map (·.sender) = inserts.map (·.message.sender) := by
  induction inserts using List.reverseRecOn with
  | nil => rfl
  | append_singleton inserts i ih =>
    rw [afterAll_concat, records_insert, List.map_append, List.map_append, ih]
    rfl

/-- How many senders have sent something. -/
def senderCount (inserts : List Insertion) : Nat :=
  (inserts.map (·.message.sender)).dedup.length

/-- Every sender has got one thread. -/
theorem length_threads_afterAll (inserts : List Insertion) :
    (afterAll inserts).threads.length = senderCount inserts := by
  have hlength : (afterAll inserts).senders.length = (afterAll inserts).threads.length :=
    List.length_map _
  rw [← hlength]
  refine ((List.perm_ext_iff_of_nodup (isIndexed_afterAll inserts).nodup
    (List.nodup_dedup _)).2 fun sender => ?_).length_eq
  rw [(isIndexed_afterAll inserts).mem_senders, List.mem_dedup, ← map_sender_afterAll,
    List.mem_map]

theorem length_records_afterAll (inserts : List Insertion) :
    (afterAll inserts).records.length = inserts.length := by
  simpa using congrArg List.length (map_sender_afterAll inserts)

/-- The messages have been counted. -/
theorem lastMessage_afterAll (inserts : List Insertion) :
    (afterAll inserts).lastMessage = inserts.length := by
  rw [(isNumbered_afterAll inserts).lastMessage, length_records_afterAll]

/-- Messages and threads are numbered in the order in which they came. -/
structure NumbersInOrder (inserts : List Insertion) : Prop where
  /-- The counter has counted the messages. -/
  lastMessage_eq : (afterAll inserts).lastMessage = inserts.length
  /-- The table of threads has grown once for every sender. -/
  length_threads_eq : (afterAll inserts).threads.length = senderCount inserts
  /-- The next message gets the next number, and one record at the end. -/
  insert_eq : ∀ placement m, ∃ identity,
    store.insert placement m (afterAll inserts) =
        (.ok identity, afterAll (inserts ++ [⟨placement, m⟩])) ∧
      identity.message.val = inserts.length + 1 ∧
      (afterAll (inserts ++ [⟨placement, m⟩])).records = (afterAll inserts).records ++ [{
        identity
        sender := m.sender
        body := m.body
        timestamp := m.timestamp
        kind := m.kind
        flags := m.flags
        inbox := placement.inbox }] ∧
      -- a sender who is new gets the next thread
      ((∀ i ∈ inserts, i.message.sender ≠ m.sender) →
        identity.thread.val = senderCount inserts + 1)
  /-- Every sender has a thread, and it is no one else's. -/
  thread_eq_iff : ∀ {r r'}, r ∈ (afterAll inserts).records → r' ∈ (afterAll inserts).records →
    (r.identity.thread = r'.identity.thread ↔ r.sender = r'.sender)
  /-- The threads in use are numbered from 1 to the number of senders. -/
  exists_thread_iff : ∀ n, (∃ r ∈ (afterAll inserts).records, r.identity.thread.val = n) ↔
    1 ≤ n ∧ n ≤ senderCount inserts
  /-- A sender is found in the thread of their records. -/
  threadOf?_eq_some : ∀ {sender thread}, (afterAll inserts).threadOf? sender = some thread ↔
    ∃ r ∈ (afterAll inserts).records, r.sender = sender ∧ r.identity.thread = thread

/-- Whatever is inserted into a mailbox, it numbers messages and threads in order. -/
theorem numbersInOrder (inserts : List Insertion) : NumbersInOrder inserts where
  lastMessage_eq := lastMessage_afterAll inserts
  length_threads_eq := length_threads_afterAll inserts
  insert_eq placement m := by
    refine ⟨(afterAll inserts).nextIdentity m.sender, ?_, ?_, ?_, fun hnew => ?_⟩
    · rw [afterAll_concat]
      rfl
    · rw [← lastMessage_afterAll]
      rfl
    · rw [afterAll_concat]
      rfl
    · have hnone : (afterAll inserts).threadOf? m.sender = none := by
        rw [← Option.not_isSome_iff_eq_none, (isIndexed_afterAll inserts).isSome_threadOf?_iff,
          (isIndexed_afterAll inserts).mem_senders, ← List.mem_map, map_sender_afterAll,
          List.mem_map]
        exact fun ⟨i, hi, heq⟩ => hnew i hi heq
      rw [thread_nextIdentity_of_new hnone, length_threads_afterAll]
  thread_eq_iff {r r'} hr hr' := by
    have hthread := (isNumbered_afterAll inserts).threads r hr
    have hthread' := (isNumbered_afterAll inserts).threads r' hr'
    constructor
    · exact fun heq => (isNumbered_afterAll inserts).threadOf?_inj hthread (heq ▸ hthread')
    · exact fun heq => Option.some.inj (hthread.symm.trans (heq ▸ hthread'))
  exists_thread_iff n := by
    rw [← length_threads_afterAll]
    exact (isIndexed_afterAll inserts).exists_thread_iff (isNumbered_afterAll inserts) n
  threadOf?_eq_some := (isIndexed_afterAll inserts).threadOf?_eq_some (isNumbered_afterAll inserts)

end SecureInbox.Mailbox
