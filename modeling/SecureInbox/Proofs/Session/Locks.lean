import Mathlib.Data.List.Nodup
import SecureInbox.Session.Locks

/-!
# Locks that exclude each other

What happens to the locks is told in single steps (`SenderLocks.Step`): a request comes, one
that waits is granted its lock, and one ends. Which request is granted a lock that is free,
and when, is left open; a lock is only held once at a time. Asking for a lock and ending a
request, as `SenderLocks.request` and `SenderLocks.drop` do it, are made of such steps
(`SenderLocks.Reachable.request`, `SenderLocks.Reachable.drop`).

Entries are pruned, so a sender may have one lock now and another later. Still, as long as
there is a request of the sender, the register has the lock that it is for
(`SenderLocks.IsSound`): the lock is used, so its entry stays. Hence all requests of a sender
are for the same lock, whoever else comes and goes (`SenderLocks.Reachable.excludes`).
-/

namespace SecureInbox

namespace SenderLocks

variable {s s' : SenderLocks} {r r' : LockRequest} {sender : String} {lock : Nat}

/-- The requests there are: those that hold their lock, and those that wait. -/
def requests (s : SenderLocks) : List LockRequest := s.held ++ s.waiting

/-- How often a lock is referred to: by the register, and by every request for it. -/
def references (s : SenderLocks) (lock : Nat) : Nat :=
  s.entries.countP (·.2 == lock) + s.requests.countP (·.lock == lock)

theorem isUsed_iff : s.isUsed lock = true ↔ ∃ r ∈ s.requests, r.lock = lock := by
  simp [isUsed, requests, or_and_right, exists_or]

theorem isHeld_eq_false : s.isHeld lock = false ↔ ∀ r ∈ s.held, r.lock ≠ lock := by
  simp [isHeld]

/-! ## Steps -/

/-- The locks after a request has come, which waits at first. -/
def come (s : SenderLocks) (name sender : String) : SenderLocks :=
  let (lock, s) := s.prune.enter sender
  { s with waiting := s.waiting ++ [⟨name, sender, lock⟩] }

/-- A step of the locks. -/
inductive Step : SenderLocks → SenderLocks → Prop
  | come (s : SenderLocks) (name sender : String) : Step s (s.come name sender)
  /-- A lock that nobody holds is granted to some request that waits for it. -/
  | grant {s : SenderLocks} {r : LockRequest} {before after : List LockRequest} :
      s.waiting = before ++ r :: after → s.isHeld r.lock = false →
      Step s { s with held := s.held ++ [r], waiting := before ++ after }
  /-- A request that holds its lock ends. -/
  | release {s : SenderLocks} {r : LockRequest} {before after : List LockRequest} :
      s.held = before ++ r :: after → Step s { s with held := before ++ after }
  /-- A request that waits is given up. -/
  | cancel {s : SenderLocks} {r : LockRequest} {before after : List LockRequest} :
      s.waiting = before ++ r :: after → Step s { s with waiting := before ++ after }

/-- The locks that some steps lead to, from when there were none. -/
inductive Reachable : SenderLocks → Prop
  | new : Reachable {}
  | step {s s' : SenderLocks} : Reachable s → Step s s' → Reachable s'

/-! ## Soundness -/

/-- The register has one lock for each sender and one sender for each lock, and no number is
    used twice. Every request is for the lock that the register has for its sender, and no
    lock is held twice. -/
structure IsSound (s : SenderLocks) : Prop where
  nodup_senders : (s.entries.map Prod.fst).Nodup
  nodup_locks : (s.entries.map Prod.snd).Nodup
  lt_fresh : ∀ entry ∈ s.entries, entry.2 < s.fresh
  registered : ∀ r ∈ s.requests, (r.sender, r.lock) ∈ s.entries
  exclusive : (s.held.map (·.lock)).Nodup

theorem mem_entries_prune {entry : String × Nat} :
    entry ∈ s.prune.entries ↔ entry ∈ s.entries ∧ ∃ r ∈ s.requests, r.lock = entry.2 := by
  rw [prune, List.mem_filter, isUsed_iff]

/-- Pruning takes no entry away from a request. -/
theorem IsSound.prune (h : s.IsSound) : s.prune.IsSound where
  nodup_senders := h.nodup_senders.sublist (List.filter_sublist.map _)
  nodup_locks := h.nodup_locks.sublist (List.filter_sublist.map _)
  lt_fresh entry hentry := h.lt_fresh entry (mem_entries_prune.1 hentry).1
  registered r hr := mem_entries_prune.2 ⟨h.registered r hr, r, hr, rfl⟩
  exclusive := h.exclusive

/-- A sender is entered under the lock that the register has, or else under a new one. -/
theorem enter_cases (s : SenderLocks) (sender : String) :
    ((sender, (s.enter sender).1) ∈ s.entries ∧ (s.enter sender).2 = s) ∨
      (s.entries.get? sender = none ∧ (s.enter sender).1 = s.fresh ∧
        (s.enter sender).2 =
          { s with entries := s.entries ++ [(sender, s.fresh)], fresh := s.fresh + 1 }) := by
  unfold enter
  split
  · rename_i hget
    exact .inl ⟨Table.mem_of_get? hget, rfl⟩
  · rename_i hget
    exact .inr ⟨hget, rfl, by rw [Table.set_of_get?_eq_none hget]⟩

theorem held_enter (s : SenderLocks) (sender : String) : (s.enter sender).2.held = s.held := by
  obtain ⟨-, h⟩ | ⟨-, -, h⟩ := s.enter_cases sender <;> rw [h]

theorem waiting_enter (s : SenderLocks) (sender : String) :
    (s.enter sender).2.waiting = s.waiting := by
  obtain ⟨-, h⟩ | ⟨-, -, h⟩ := s.enter_cases sender <;> rw [h]

theorem requests_enter (s : SenderLocks) (sender : String) :
    (s.enter sender).2.requests = s.requests := by
  rw [requests, held_enter, waiting_enter, requests]

theorem mem_entries_enter (s : SenderLocks) (sender : String) :
    (sender, (s.enter sender).1) ∈ (s.enter sender).2.entries := by
  obtain ⟨hmem, h⟩ | ⟨-, hlock, h⟩ := s.enter_cases sender
  · rwa [h]
  · rw [h, hlock]
    exact List.mem_append_right _ List.mem_cons_self

theorem IsSound.enter (h : s.IsSound) (sender : String) : (s.enter sender).2.IsSound := by
  obtain ⟨-, heq⟩ | ⟨hget, -, heq⟩ := s.enter_cases sender <;> rw [heq]
  · exact h
  · constructor
    case nodup_senders =>
      rw [List.map_append, List.map_singleton]
      refine List.nodup_append.2 ⟨h.nodup_senders, List.nodup_singleton _, ?_⟩
      simp only [List.mem_map, List.mem_singleton]
      rintro _ ⟨⟨k, v⟩, hmem, rfl⟩ _ rfl rfl
      exact nomatch hget.symm.trans (Table.get?_of_mem h.nodup_senders hmem)
    case nodup_locks =>
      rw [List.map_append, List.map_singleton]
      refine List.nodup_append.2 ⟨h.nodup_locks, List.nodup_singleton _, ?_⟩
      simp only [List.mem_map, List.mem_singleton]
      rintro _ ⟨entry, hmem, rfl⟩ _ rfl
      exact Nat.ne_of_lt (h.lt_fresh entry hmem)
    case lt_fresh =>
      intro entry hentry
      rcases List.mem_append.1 hentry with hentry | hentry
      · exact Nat.lt_succ_of_lt (h.lt_fresh entry hentry)
      · rw [List.mem_singleton.1 hentry]
        exact Nat.lt_succ_self _
    case registered => exact fun r hr => List.mem_append_left _ (h.registered r hr)
    case exclusive => exact h.exclusive

theorem held_come (s : SenderLocks) (name sender : String) : (s.come name sender).held = s.held :=
  s.prune.held_enter sender

theorem waiting_come (s : SenderLocks) (name sender : String) :
    (s.come name sender).waiting =
      s.waiting ++ [⟨name, sender, (s.prune.enter sender).1⟩] :=
  congrArg (· ++ _) (s.prune.waiting_enter sender)

theorem requests_come (s : SenderLocks) (name sender : String) :
    (s.come name sender).requests =
      s.requests ++ [⟨name, sender, (s.prune.enter sender).1⟩] := by
  rw [requests, held_come, waiting_come, requests, List.append_assoc]

theorem IsSound.come (h : s.IsSound) (name sender : String) : (s.come name sender).IsSound := by
  have henter := h.prune.enter sender
  constructor
  case nodup_senders => exact henter.nodup_senders
  case nodup_locks => exact henter.nodup_locks
  case lt_fresh => exact henter.lt_fresh
  case registered =>
    intro r hr
    rw [requests_come, List.mem_append, List.mem_singleton] at hr
    rcases hr with hr | rfl
    · exact henter.registered r (by rwa [requests_enter])
    · exact s.prune.mem_entries_enter sender
  case exclusive => exact henter.exclusive

/-- Locks are as sound with fewer requests. -/
theorem IsSound.fewer (h : s.IsSound) {held waiting : List LockRequest}
    (hheld : List.Sublist held s.held) (hwaiting : List.Sublist waiting s.waiting) :
    IsSound { s with held, waiting } where
  nodup_senders := h.nodup_senders
  nodup_locks := h.nodup_locks
  lt_fresh := h.lt_fresh
  registered r hr := h.registered r ((hheld.append hwaiting).subset hr)
  exclusive := h.exclusive.sublist (hheld.map _)

/-- A step keeps the locks sound. -/
theorem IsSound.step (h : s.IsSound) (hstep : Step s s') : s'.IsSound := by
  have hwithout : ∀ (before after : List LockRequest) (r : LockRequest),
      List.Sublist (before ++ after) (before ++ r :: after) := fun before after r =>
    (List.Sublist.refl before).append (List.sublist_cons_self r after)
  cases hstep with
  | come name sender => exact h.come name sender
  | @grant r before after hwaiting hfree =>
    have hrequests : r ∈ s.requests := by simp [requests, hwaiting]
    have hfewer := h.fewer (List.Sublist.refl s.held) (hwaiting ▸ hwithout before after r)
    refine { hfewer with registered := fun r' hr' => ?_, exclusive := ?_ }
    · simp only [requests, List.append_assoc, List.singleton_append] at hr'
      rcases List.mem_append.1 hr' with hr' | hr'
      · exact hfewer.registered r' (List.mem_append_left _ hr')
      · rcases List.mem_cons.1 hr' with rfl | hr'
        · exact h.registered r' hrequests
        · exact hfewer.registered r' (List.mem_append_right _ hr')
    · rw [List.map_append, List.map_singleton]
      refine List.nodup_append.2 ⟨h.exclusive, List.nodup_singleton _, ?_⟩
      simpa [isHeld_eq_false] using hfree
  | @release r before after hheld =>
    exact h.fewer (hheld ▸ hwithout before after r) (List.Sublist.refl _)
  | @cancel r before after hwaiting =>
    exact h.fewer (List.Sublist.refl _) (hwaiting ▸ hwithout before after r)

theorem Reachable.isSound (h : s.Reachable) : s.IsSound := by
  induction h with
  | new => exact ⟨.nil, .nil, nofun, nofun, .nil⟩
  | step _ hstep ih => exact ih.step hstep

/-! ## Asking and ending -/

/-- A request waits as it came, or it is granted its lock at once if nobody holds that. -/
theorem request_eq (s : SenderLocks) (name sender : String) :
    s.request name sender =
      if (s.come name sender).isHeld (s.prune.enter sender).1 then s.come name sender
      else { s.come name sender with
        held := s.held ++ [⟨name, sender, (s.prune.enter sender).1⟩], waiting := s.waiting } := by
  have hheld : (s.prune.enter sender).2.held = s.held := s.prune.held_enter sender
  have hwaiting : (s.prune.enter sender).2.waiting = s.waiting := s.prune.waiting_enter sender
  calc s.request name sender
    _ = (s.prune.enter sender).2.enqueue ⟨name, sender, (s.prune.enter sender).1⟩ := rfl
    _ = if (s.come name sender).isHeld (s.prune.enter sender).1 then s.come name sender
        else { s.come name sender with
          held := (s.prune.enter sender).2.held ++ [⟨name, sender, (s.prune.enter sender).1⟩]
          waiting := (s.prune.enter sender).2.waiting } := rfl
    _ = _ := by rw [hheld, hwaiting]

/-- Asking for a lock is a step, or two if the lock is granted at once. -/
theorem Reachable.request (h : s.Reachable) (name sender : String) :
    (s.request name sender).Reachable := by
  have hcome : (s.come name sender).Reachable := h.step (.come s name sender)
  rw [request_eq]
  split
  · exact hcome
  · rename_i hfree
    have hgrant := Step.grant (s.waiting_come name sender) (Bool.eq_false_iff.2 hfree)
    rw [held_come, List.append_nil] at hgrant
    exact hcome.step hgrant

/-- No one else holds the lock of a request that holds it. -/
theorem IsSound.isHeld_eq_false (h : s.IsSound) {before after : List LockRequest}
    (hheld : s.held = before ++ r :: after) :
    isHeld { s with held := before ++ after } r.lock = false := by
  have hexclusive := h.exclusive
  rw [hheld, List.map_append, List.map_cons, List.nodup_middle, List.nodup_cons,
    ← List.map_append] at hexclusive
  refine SenderLocks.isHeld_eq_false.2 fun r' hr' hlock => hexclusive.1 ?_
  exact hlock ▸ List.mem_map_of_mem hr'

/-- Ending a request is a step, or two if its lock is handed over. -/
theorem Reachable.drop (h : s.Reachable) (name : String) : (s.drop name).Reachable := by
  unfold SenderLocks.drop
  split
  · rename_i r hfind
    obtain ⟨before, after, -, hheld, herase⟩ :=
      List.exists_erase_eq (List.mem_of_find?_eq_some hfind)
    rw [herase]
    have hrelease := h.step (.release hheld)
    unfold handOver
    split
    · rename_i r' hfind'
      obtain ⟨before', after', -, hwaiting, herase'⟩ :=
        List.exists_erase_eq (List.mem_of_find?_eq_some hfind')
      have hlock : r'.lock = r.lock := by simpa using List.find?_some hfind'
      rw [herase']
      exact hrelease.step (.grant hwaiting (hlock ▸ h.isSound.isHeld_eq_false hheld))
    · exact hrelease
  · obtain heq | ⟨r, before, after, -, -, hwaiting, heq⟩ :=
      List.exists_or_eq_self_of_eraseP (·.name == name) s.waiting
    · rwa [heq]
    · rw [heq]
      exact h.step (.cancel hwaiting)

/-! ## Exclusion -/

/-- The locks keep the requests of one sender apart, and no others. -/
structure Excludes (s : SenderLocks) : Prop where
  /-- Of the requests of a sender, one at most holds a lock. -/
  held_le_one : ∀ sender, s.held.countP (·.sender == sender) ≤ 1
  /-- All requests of a sender are for one lock, that which the register has for them. -/
  registered : ∀ r ∈ s.requests, s.entries.get? r.sender = some r.lock
  /-- Requests of different senders are for different locks. -/
  apart : ∀ r ∈ s.requests, ∀ r' ∈ s.requests, r.lock = r'.lock → r.sender = r'.sender
  /-- An entry outlives pruning just if the register is not alone to refer to its lock. -/
  mem_prune : ∀ entry ∈ s.entries, (entry ∈ s.prune.entries ↔ 1 < s.references entry.2)
  /-- A sender without a request gets the lock at once, whoever else holds theirs. -/
  granted : ∀ name sender, (∀ r ∈ s.requests, r.sender ≠ sender) →
    ∃ lock, (s.request name sender).held = s.held ++ [⟨name, sender, lock⟩] ∧
      (s.request name sender).waiting = s.waiting
  /-- After a request, the register has the senders with a request, each once. -/
  nodup_senders : ∀ name sender, ((s.request name sender).entries.map Prod.fst).Nodup
  mem_senders : ∀ name sender other,
    other ∈ (s.request name sender).entries.map Prod.fst ↔
      other = sender ∨ ∃ r ∈ (s.request name sender).requests, r.sender = other

namespace IsSound

variable (h : s.IsSound)
include h

theorem get?_eq (hr : r ∈ s.requests) : s.entries.get? r.sender = some r.lock :=
  Table.get?_of_mem h.nodup_senders (h.registered r hr)

/-- The sender of a request is the one that the register has for its lock. -/
theorem sender_eq {name : String} (hr : r ∈ s.requests) (hentry : (name, r.lock) ∈ s.entries) :
    r.sender = name :=
  congrArg Prod.fst (List.inj_on_of_nodup_map h.nodup_locks (h.registered r hr) hentry rfl)

theorem lock_eq (hr : r ∈ s.requests) (hr' : r' ∈ s.requests) (hsender : r.sender = r'.sender) :
    r.lock = r'.lock :=
  Option.some.inj ((h.get?_eq hr).symm.trans (hsender ▸ h.get?_eq hr'))

theorem held_le_one (sender : String) : s.held.countP (·.sender == sender) ≤ 1 := by
  by_cases hany : ∃ r ∈ s.held, r.sender = sender
  · -- All that are held by the sender are the same lock, and no lock is held twice.
    obtain ⟨r, hr, rfl⟩ := hany
    have hrequests : ∀ r' ∈ s.held, r' ∈ s.requests := fun _ => List.mem_append_left _
    calc s.held.countP (·.sender == r.sender)
      _ ≤ s.held.countP (·.lock == r.lock) := by
        refine List.countP_mono_left fun r' hr' hsender => beq_iff_eq.2 ?_
        exact h.lock_eq (hrequests r' hr') (hrequests r hr) (beq_iff_eq.1 hsender)
      _ = (s.held.map (·.lock)).count r.lock := by rw [List.count, List.countP_map]; rfl
      _ ≤ 1 := List.nodup_iff_count_le_one.1 h.exclusive r.lock
  · have hnone : s.held.countP (·.sender == sender) = 0 :=
      List.countP_eq_zero.2 fun r hr hsender => hany ⟨r, hr, beq_iff_eq.1 hsender⟩
    exact hnone ▸ Nat.zero_le 1

/-- An entry outlives pruning just if the register is not alone to refer to its lock. -/
theorem mem_prune {entry : String × Nat} (hentry : entry ∈ s.entries) :
    entry ∈ s.prune.entries ↔ 1 < s.references entry.2 := by
  have hregister : s.entries.countP (·.2 == entry.2) = 1 := by
    have hcount : s.entries.countP (·.2 == entry.2) = (s.entries.map Prod.snd).count entry.2 := by
      rw [List.count, List.countP_map]
      rfl
    rw [hcount, List.count_eq_one_of_mem h.nodup_locks (List.mem_map_of_mem hentry)]
  have hrequests : (∃ r ∈ s.requests, r.lock = entry.2) ↔
      0 < s.requests.countP (·.lock == entry.2) := by simp [List.countP_pos_iff]
  rw [mem_entries_prune, and_iff_right hentry, hrequests, references, hregister]
  omega

/-- Without a request of the sender, nobody holds the lock that the sender is entered
    under. -/
theorem isHeld_enter_eq_false (hnone : ∀ r ∈ s.requests, r.sender ≠ sender) :
    s.isHeld (s.prune.enter sender).1 = false := by
  refine SenderLocks.isHeld_eq_false.2 fun r hr hlock => ?_
  have hr : r ∈ s.requests := List.mem_append_left _ hr
  obtain ⟨hmem, -⟩ | ⟨-, hfresh, -⟩ := s.prune.enter_cases sender
  · exact hnone r hr (h.sender_eq hr (hlock ▸ (mem_entries_prune.1 hmem).1))
  · rw [hfresh] at hlock
    exact absurd hlock (Nat.ne_of_lt (h.lt_fresh _ (h.registered r hr)))

theorem mem_senders_prune {other : String} :
    other ∈ s.prune.entries.map Prod.fst ↔ ∃ r ∈ s.requests, r.sender = other := by
  constructor
  · rintro hother
    obtain ⟨⟨_, lock⟩, hentry, rfl⟩ := List.mem_map.1 hother
    obtain ⟨hentry, r, hr, rfl⟩ := mem_entries_prune.1 hentry
    exact ⟨r, hr, h.sender_eq hr hentry⟩
  · rintro ⟨r, hr, rfl⟩
    exact List.mem_map.2 ⟨_, h.prune.registered r hr, rfl⟩

end IsSound

theorem entries_request (s : SenderLocks) (name sender : String) :
    (s.request name sender).entries = (s.prune.enter sender).2.entries := by
  rw [request_eq]
  split <;> rfl

theorem mem_requests_request (s : SenderLocks) (name sender : String) :
    r ∈ (s.request name sender).requests ↔
      r ∈ s.requests ∨ r = ⟨name, sender, (s.prune.enter sender).1⟩ := by
  rw [request_eq]
  split
  · rw [requests_come, List.mem_append, List.mem_singleton]
  · simp only [requests, List.append_assoc, List.singleton_append, List.mem_append, List.mem_cons]
    tauto

theorem mem_senders_enter (s : SenderLocks) (sender : String) {other : String} :
    other ∈ (s.enter sender).2.entries.map Prod.fst ↔
      other = sender ∨ other ∈ s.entries.map Prod.fst := by
  obtain ⟨hmem, heq⟩ | ⟨-, -, heq⟩ := s.enter_cases sender <;> rw [heq]
  · exact (or_iff_right_of_imp fun hother => hother ▸ List.mem_map.2 ⟨_, hmem, rfl⟩).symm
  · rw [List.map_append, List.mem_append, List.map_singleton, List.mem_singleton, or_comm]

/-- Whatever steps are taken, the locks exclude the requests of one sender from each other,
    and no others, although entries are pruned; and asking for a lock and ending a request
    is taking such steps. -/
theorem Reachable.excludes (h : s.Reachable) :
    s.Excludes ∧ (∀ name sender, (s.request name sender).Reachable) ∧
      ∀ name, (s.drop name).Reachable := by
  have hsound := h.isSound
  refine ⟨?_, h.request, h.drop⟩
  constructor
  case held_le_one => exact hsound.held_le_one
  case registered => exact fun r hr => hsound.get?_eq hr
  case apart =>
    exact fun r hr r' hr' hlock => hsound.sender_eq hr (hlock ▸ hsound.registered r' hr')
  case mem_prune => exact fun entry hentry => hsound.mem_prune hentry
  case granted =>
    intro name sender hnone
    have hfree : (s.come name sender).isHeld (s.prune.enter sender).1 = false := by
      rw [isHeld, held_come]
      exact hsound.isHeld_enter_eq_false hnone
    rw [request_eq, if_neg (Bool.eq_false_iff.1 hfree)]
    exact ⟨_, rfl, rfl⟩
  case nodup_senders => exact fun name sender => (h.request name sender).isSound.nodup_senders
  case mem_senders =>
    intro name sender other
    rw [entries_request, mem_senders_enter, hsound.mem_senders_prune]
    simp only [mem_requests_request, or_and_right, exists_or, exists_eq_left]
    constructor
    · exact fun hother => hother.imp_right .inl
    · rintro (hother | hr | rfl)
      · exact .inl hother
      · exact .inr hr
      · exact .inl rfl

/-- Alice is asked for twice and bob once; then the first request ends. -/
def crossing : SenderLocks :=
  (((({} : SenderLocks).request "a" "alice").request "b" "bob").request "c" "alice").drop "a"

/-- The second request for alice gets the lock of the first, beside the one for bob. -/
theorem excludes_crossing :
    crossing.held = [⟨"b", "bob", 1⟩, ⟨"c", "alice", 0⟩] ∧ crossing.Reachable ∧
      crossing.Excludes := by
  have hreachable : crossing.Reachable :=
    .drop (.request (.request (.request .new "a" "alice") "b" "bob") "c" "alice") "a"
  exact ⟨by decide, hreachable, hreachable.excludes.1⟩

end SenderLocks

end SecureInbox
