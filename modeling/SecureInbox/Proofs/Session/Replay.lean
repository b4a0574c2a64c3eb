import SecureInbox.Proofs.Intake.Whole
import SecureInbox.Proofs.Session.Moves

/-!
# Replay protection

Key exchanges and bundles of one sender share an epoch. Over a ledger, what is
committed for a sender has a sequence at or above the epoch, and moves the epoch
just past it. So along every run:

* the sequences committed for a sender increase (`Desk.InStep.increasing`), and
  the epoch is one above the last of them (`Desk.InStep.epoch_eq`);
* key material whose sequence is not above all of them is not trusted, and its
  message is stored as it came (`LeavesUnprocessed`).

`Intake.run_protectsFromReplay` puts this together for a receiver that starts
with a new ledger.
-/

namespace SecureInbox

open SessionStore (committer)

/-! ## Sequences and epochs -/

/-- The epoch that a sender is in after the sequences given were committed. -/
def epochAfter (sequences : List UInt32) : Nat :=
  match sequences.getLast? with
  | none => 0
  | some last => last.toNat + 1

@[simp]
theorem epochAfter_concat (sequences : List UInt32) (q : UInt32) :
    epochAfter (sequences ++ [q]) = q.toNat + 1 := by
  simp [epochAfter]

/-- No epoch is more than one above the highest sequence. -/
theorem epochAfter_le (sequences : List UInt32) : epochAfter sequences ≤ UInt32.size := by
  unfold epochAfter
  split
  · exact Nat.zero_le _
  · exact Nat.succ_le_of_lt (UInt32.toNat_lt_size _)

theorem lt_epochAfter {sequences : List UInt32} (h : sequences.Pairwise (· < ·)) {q : UInt32}
    (hq : q ∈ sequences) : q.toNat < epochAfter sequences := by
  obtain rfl | ⟨init, last, rfl⟩ := List.eq_nil_or_concat sequences
  · exact nomatch hq
  · rw [List.concat_eq_append] at h hq ⊢
    rw [epochAfter_concat, Nat.lt_succ_iff]
    obtain ⟨-, -, hlast⟩ := List.pairwise_append.1 h
    rcases List.mem_append.1 hq with hq | hq
    · exact Nat.le_of_lt (UInt32.lt_iff_toNat_lt.1 (hlast q hq last List.mem_cons_self))
    · exact Nat.le_of_eq (congrArg UInt32.toNat (List.mem_singleton.1 hq))

/-- A sequence that is not out of date can follow those committed before. -/
theorem pairwise_concat_of_epochAfter_le {sequences : List UInt32}
    (h : sequences.Pairwise (· < ·)) {q : UInt32} (hq : epochAfter sequences ≤ q.toNat) :
    (sequences ++ [q]).Pairwise (· < ·) := by
  refine List.pairwise_append.2 ⟨h, List.pairwise_singleton _ _, fun q' hq' last hlast => ?_⟩
  rw [List.mem_singleton.1 hlast, UInt32.lt_iff_toNat_lt]
  exact Nat.lt_of_lt_of_le (lt_epochAfter h hq') hq

/-! ## Sequences on record -/

/-- The sequence of the key material in a message, if there is any and it can be
    read. -/
def Message.sequence? (m : Message) : Option UInt32 :=
  match m.kind with
  | .keyExchange => (KeyExchange.decode m.body).toOption.map (·.sequence)
  | .preKeyBundle => (PreKeyBundle.decode m.body).toOption.map (·.sequence)
  | .plain | .secureCiphertext => none

/-- The sequences that a sender's key material was committed with, oldest
    first. -/
def committedSequences (sender : String) (journal : List Act) : List UInt32 :=
  ((journal.filterMap Act.commit?).filter (committer · == sender)).map Commit.sequence

variable {μ : Type} {policy : Policy} {secret : Option MasterSecret} {m : Message} {c : Commit}
  {asked acts : List Act}

theorem Earns.sequence?_eq (h : Earns policy secret m c asked) :
    m.sequence? = some c.sequence := by
  cases h with
  | exchange _ h =>
    simp [Message.sequence?, h.answered.kind, h.decoded, Except.toOption, Commit.sequence]
  | bundle h => simp [Message.sequence?, h.kind, h.decoded, Except.toOption, Commit.sequence]

theorem Message.kind_ne_of_sequence? {q : UInt32} (h : m.sequence? = some q) :
    m.kind ≠ .secureCiphertext := by
  intro hkind
  rw [sequence?, hkind] at h
  exact nomatch h

/-- The epoch of a sender keeps step with the sequences on record, which
    increase. -/
structure Desk.InStep (d : Desk μ Ledger) (sender : String) : Prop where
  increasing : (committedSequences sender d.journal).Pairwise (· < ·)
  epoch_eq : (d.sessions.session sender).epoch = epochAfter (committedSequences sender d.journal)

namespace Desk.InStep

variable {d d' : Desk μ Ledger} {sender : String}

theorem fresh (box : μ) (prekeys : List UInt32) (sender : String) :
    ({ messages := box, sessions := { prekeys } } : Desk μ Ledger).InStep sender where
  increasing := .nil
  epoch_eq := rfl

/-- Nothing that is on record is trusted again. -/
theorem not_trusts (h : d.InStep sender) (hc : committer c = sender) {q : UInt32}
    (hq : q ∈ committedSequences sender d.journal) (hle : c.sequence ≤ q) :
    ¬d.sessions.Trusts c := by
  intro htrusts
  have hfresh := htrusts.fresh
  rw [hc, h.epoch_eq] at hfresh
  have hlt := lt_epochAfter h.increasing hq
  have hle := UInt32.le_iff_toNat_le.1 hle
  omega

/-- What is committed for others leaves the epoch where it is. -/
theorem of_eq (h : d.InStep sender) (hcommits : d'.commitsOf sender = d.commitsOf sender)
    (hsession : d'.sessions.session sender = d.sessions.session sender) : d'.InStep sender := by
  have hsequences :
      committedSequences sender d'.journal = committedSequences sender d.journal :=
    congrArg (List.map Commit.sequence) hcommits
  exact ⟨hsequences ▸ h.increasing, by rw [hsession, hsequences, h.epoch_eq]⟩

/-- A commit that the ledger trusts moves the epoch of its sender along. -/
theorem concat (h : d.InStep sender) (hc : committer c = sender) (htrusts : d.sessions.Trusts c)
    (hcommits : d'.commitsOf sender = d.commitsOf sender ++ [c])
    (hsession : d'.sessions.session sender = c.settle (d.sessions.session sender)) :
    d'.InStep sender := by
  have hsequences : committedSequences sender d'.journal =
      committedSequences sender d.journal ++ [c.sequence] :=
    (congrArg (List.map Commit.sequence) hcommits).trans List.map_append
  -- The sequence is not below the epoch, so it is above all on record, and the
  -- maximum that the epoch moves to is the sequence itself.
  have hfresh := htrusts.fresh
  rw [hc, h.epoch_eq] at hfresh
  refine ⟨hsequences ▸ pairwise_concat_of_epochAfter_le h.increasing hfresh, ?_⟩
  rw [hsession, Commit.epoch_settle, h.epoch_eq, hsequences, epochAfter_concat,
    Nat.max_eq_right hfresh]

/-- The epoch keeps step however the desk moves. -/
theorem moves (hmoves : d.Moves d') (h : d.InStep sender) : d'.InStep sender := by
  rcases hmoves.cases_sender sender with
    ⟨hcommits, hsession⟩ | ⟨c, hc, htrusts, hcommits, hsession⟩
  · exact h.of_eq hcommits hsession
  · exact h.concat hc htrusts hcommits hsession

end Desk.InStep

/-! ## Messages that are left as they came -/

/-- The entries try no commit, store the message with the body and of the kind
    it came with, not as processed, and tell of no updated session. -/
structure LeavesUnprocessed (m : Message) (acts : List Act) : Prop where
  uncommitted : ∀ act ∈ acts, act.isCommit = false
  inserted : ∀ {placement : Placement} {m' : Message}
    {answer : Except StorageError StoredIdentity}, .inserted placement m' answer ∈ acts →
      m'.body = m.body ∧ m'.kind = m.kind ∧ m'.flags.contains .processed = false
  untold : ∀ thread, .notified (.securityUpdated thread) ∉ acts

/-- A message that is set aside is stored as it came. -/
theorem SetsAside.leavesUnprocessed {flag : Option Flag} {result : Except StorageError Outcome}
    (h : SetsAside policy secret m asked flag)
    (hstored : StoresStandard policy secret (m.withFlag? flag) acts result)
    (hprocessed : m.flags.contains .processed = false) : LeavesUnprocessed m (asked ++ acts) where
  uncommitted := List.forall_mem_append.2
    ⟨not_commit_of_questions h.questions, not_commit_of_not_session hstored.not_session⟩
  inserted hmem := by
    rcases List.mem_append.1 hmem with hmem | hmem
    · exact Bool.noConfusion (h.questions _ hmem)
    · cases hstored <;>
        (cases List.mem_singleton.1 hmem
         exact ⟨m.body_withFlag? flag, m.kind_withFlag? flag,
           (Message.processed_withFlag? h.flag_ne_processed).trans hprocessed⟩)
  untold thread hmem := by
    rcases List.mem_append.1 hmem with hmem | hmem
    · exact Bool.noConfusion (h.questions _ hmem)
    · cases hstored <;> exact nomatch List.mem_singleton.1 hmem

theorem LeavesUnprocessed.received (h : LeavesUnprocessed m acts) (thread : ThreadId)
    (unlocked : Bool) :
    LeavesUnprocessed m (acts ++ [.notified (.messageReceived thread unlocked)]) where
  uncommitted := List.forall_mem_append.2 ⟨h.uncommitted, by simp [Act.isCommit]⟩
  inserted hmem := h.inserted (by simpa using hmem)
  untold thread hmem := h.untold thread (by simpa using hmem)

/-- A message with key material that the ledger does not trust is left as it
    came. -/
theorem Delivers.leavesUnprocessed {p : Parties μ Ledger} {d d' : Desk μ Ledger} {q : UInt32}
    {result : Except IngestError Ingested} (hp : p.sessions = Ledger.store)
    (h : Delivers policy secret m acts result) (hacts : p.DoesAll d acts d')
    (hsequence : m.sequence? = some q) (hprocessed : m.flags.contains .processed = false)
    (huntrusted : ∀ c asked, Earns policy secret m c asked → ¬d.sessions.Trusts c) :
    LeavesUnprocessed m acts := by
  have hkind := Message.kind_ne_of_sequence? hsequence
  cases h with
  | stored hroutes =>
    obtain ⟨d₁, hrouted, -⟩ := hacts.of_append
    obtain ⟨asked, flag, acts, haside, hstored, rfl⟩ :=
      hroutes.setsAside hp hrouted hkind huntrusted
    exact (haside.leavesUnprocessed hstored hprocessed).received _ _
  | refused hroutes =>
    obtain ⟨asked, flag, acts, haside, hstored, rfl⟩ :=
      hroutes.setsAside hp hacts hkind huntrusted
    exact haside.leavesUnprocessed hstored hprocessed

namespace Intake

variable {intake : Intake μ Ledger} {r : Receiver μ Ledger} {sender : String}

/-- A sender's key material is not taken in twice: the sequences committed
    increase, the epoch is one above the last of them and stays at or below 2 ^ 32, and a
    message whose sequence is not above them all is left as it came. -/
structure ProtectsFromReplay (intake : Intake μ Ledger) (r : Receiver μ Ledger)
    (sender : String) : Prop where
  inStep : r.desk.InStep sender
  epoch_le : (r.desk.sessions.session sender).epoch ≤ UInt32.size
  replayed : ∀ {e : Event} {m : Message} {q q' : UInt32},
    e.message? intake.limits r.buffer = some m → m.sender = sender → m.sequence? = some q →
      q' ∈ committedSequences sender r.desk.journal → q ≤ q' →
        LeavesUnprocessed m (intake.entries e r)

theorem protectsFromReplay (hp : intake.parties.sessions = Ledger.store)
    (h : r.desk.InStep sender) : intake.ProtectsFromReplay r sender where
  inStep := h
  epoch_le := h.epoch_eq ▸ epochAfter_le _
  replayed {e m q q'} hwhole hsender hsequence hq' hle := by
    rcases intake.take_whole e r with ⟨hnone, -⟩ | ⟨m', hwhole', hacts, hdelivers⟩
    · exact nomatch hwhole.symm.trans hnone
    · cases Option.some.inj (hwhole.symm.trans hwhole')
      have hprocessed := (Event.isFresh_message? hwhole).processed_eq_false
      refine hdelivers.leavesUnprocessed hp hacts hsequence hprocessed
        fun c asked hearns => h.not_trusts (hearns.committer_eq.trans hsender) hq' ?_
      rwa [Option.some.inj (hearns.sequence?_eq.symm.trans hsequence)]

/-- Key material is not taken in twice, whatever happened since the ledger was
    new. -/
theorem run_protectsFromReplay (messages : MessageStore μ) (limits : Limits) (policy : Policy)
    (prekeys : List UInt32) (box : μ) (buffer : Buffer) (events : List Event) (sender : String) :
    (overLedger messages limits policy).ProtectsFromReplay
      ((overLedger messages limits policy).run events
        { buffer, desk := { messages := box, sessions := { prekeys } } }) sender :=
  protectsFromReplay rfl (run_of_moves rfl Desk.InStep.moves events (.fresh box prekeys sender))

end Intake

end SecureInbox
