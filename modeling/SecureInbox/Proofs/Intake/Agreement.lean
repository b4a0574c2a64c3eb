import SecureInbox.Proofs.Intake.Noninterference
import SecureInbox.Proofs.Session.Identity

/-!
# Sessions and records agree

Over a mailbox and a ledger, what was committed for a sender shows in what is stored and
told of them (`Desk.Agrees`):

* every key exchange by a record marked as processed, and every bundle by a notification
  that the session was updated;
* the thread of the session, if there is one, by all records of the sender.

A key exchange is stored before it is committed and a bundle after, so neither half holds
in the middle of an event; both hold between any two (`Intake.run_agrees`). Since the
ledger takes in all that it trusts, no outcome is degraded.
-/

namespace SecureInbox

open SessionStore (committer)

/-! ## What is planned -/

section

variable {policy : Policy} {secret : Option MasterSecret} {m : Message} {plan : Plan}

/-- What can be planned for a message: ciphertext is stored as it is, and everything else
    is stored aside, unless it brings a bundle or a key exchange that is committed. -/
inductive Plan.IsFor (policy : Policy) (secret : Option MasterSecret) (m : Message) : Plan → Prop
  | secure : IsFor policy secret m (.secure secret m)
  | aside {flag : Option Flag} : flag ≠ some .processed →
      IsFor policy secret m (.standard policy secret (m.withFlag? flag))
  | bundle (x : PreKeyBundle) :
      IsFor policy secret m
        { Plan.secure secret (m.inner x) with material? := some (.bundle x) }
  | exchange (x : KeyExchange) :
      IsFor policy secret m
        { Plan.standard policy secret (m.withFlag .processed) with
          material? := some (.exchange x) }

theorem Ledger.plan_isFor (l : Ledger) (policy : Policy) (secret : Option MasterSecret)
    (m : Message) : (l.plan policy secret m).IsFor policy secret m := by
  have hplain : Plan.IsFor policy secret m (.standard policy secret (m.withFlag? none)) :=
    .aside nofun
  unfold plan
  split
  · exact .secure
  · unfold planBundle
    split
    · exact .aside (KeyError.flag_ne_processed _)
    · split
      · exact .bundle _
      · exact .aside (Verdict.flag_ne_processed _)
  · unfold planExchange
    split
    · split
      · exact .aside (KeyError.flag_ne_processed _)
      · split
        · exact .exchange _
        · exact .aside (Verdict.flag_ne_processed _)
    · exact hplain
  · exact hplain

/-- The plan commits a key exchange. -/
def Plan.commitsExchange (plan : Plan) : Bool :=
  match plan.material? with
  | some (.exchange _) => true
  | _ => false

/-- The plan commits a bundle. -/
def Plan.commitsBundle (plan : Plan) : Bool :=
  match plan.material? with
  | some (.bundle _) => true
  | _ => false

/-- A message is marked as processed just if its key exchange is committed. -/
theorem Plan.IsFor.processed_eq (h : plan.IsFor policy secret m)
    (hm : m.flags.contains .processed = false) :
    plan.message.flags.contains .processed = plan.commitsExchange := by
  cases h with
  | secure => exact hm
  | aside hflag => exact (Message.processed_withFlag? hflag).trans hm
  | bundle x => exact hm
  | exchange x => simp [Plan.standard, Plan.commitsExchange, Message.withFlag]

end

/-! ## Holdings that agree -/

/-- The notification tells of an updated session. -/
def Notice.isUpdate : Notice → Bool
  | .securityUpdated _ => true
  | .messageReceived _ _ => false

/-- The commit is one of a bundle. -/
def Commit.isBundle : Commit → Bool
  | .exchange _ _ _ => false
  | .bundle _ _ => true

/-- The message was marked as processed before it was stored. -/
def StoredRecord.isProcessed (r : StoredRecord) : Bool := r.flags.contains .processed

namespace Holdings

/-- The number of records marked as processed. -/
def processed (h : Holdings) : Nat := h.records.countP StoredRecord.isProcessed

/-- The number of times that the thread was told of an updated session. -/
def updates (h : Holdings) : Nat := h.notices.countP Notice.isUpdate

/-- What a sender holds agrees with the commits on record for them. -/
structure Agrees (h : Holdings) (commits : List Commit) : Prop where
  commits_eq : h.session.commits = h.processed + h.updates
  updates_eq : h.updates = commits.countP Commit.isBundle
  isSome_thread : h.session.thread.isSome ↔ ∃ r ∈ h.records, r.isProcessed
  thread_eq : ∀ {thread}, h.session.thread = some thread →
    ∀ r ∈ h.records, r.identity.thread = thread

variable {h : Holdings} {plan : Plan} {identity : StoredIdentity} {commits : List Commit}

section

variable (unlocked : Bool)

theorem processed_add :
    (h.add plan identity unlocked).processed =
      h.processed + (plan.message.flags.contains .processed).toNat := by
  rw [processed, add, List.countP_append, processed]
  rfl

theorem updates_add :
    (h.add plan identity unlocked).updates = h.updates + plan.commitsBundle.toNat := by
  rw [updates, add, List.countP_append, updates]
  obtain hnone | ⟨_ | _, hsome⟩ := Option.eq_none_or_eq_some plan.material? <;>
    simp [Plan.notices, Plan.update?, Plan.commitsBundle, Notice.isUpdate, List.countP_cons, *]

theorem commits_add :
    (h.add plan identity unlocked).session.commits =
      h.session.commits + (plan.commitsExchange.toNat + plan.commitsBundle.toNat) := by
  obtain hnone | ⟨_ | _, hsome⟩ := Option.eq_none_or_eq_some plan.material? <;>
    simp [add, Plan.commit?, KeyMaterial.commit, Commit.settle, Session.advance,
      Plan.commitsExchange, Plan.commitsBundle, *]

theorem thread_add :
    (h.add plan identity unlocked).session.thread =
      if plan.commitsExchange then some identity.thread else h.session.thread := by
  obtain hnone | ⟨_ | _, hsome⟩ := Option.eq_none_or_eq_some plan.material? <;>
    simp [add, Plan.commit?, KeyMaterial.commit, Commit.settle, Session.advance,
      Plan.commitsExchange, *]

end

theorem countP_isBundle_commit? :
    (plan.commit? identity).toList.countP Commit.isBundle = plan.commitsBundle.toNat := by
  obtain hnone | ⟨_ | _, hsome⟩ := Option.eq_none_or_eq_some plan.material? <;>
    simp [Plan.commit?, KeyMaterial.commit, Plan.commitsBundle, Commit.isBundle, *]

namespace Agrees

theorem fresh : Agrees ⟨[], [], [], {}⟩ [] where
  commits_eq := rfl
  updates_eq := rfl
  isSome_thread := by simp
  thread_eq := nofun

/-- Holdings go on agreeing with the commits as a plan is carried out that marks just the
    key exchanges it commits as processed. -/
theorem add (hagrees : h.Agrees commits) (unlocked : Bool)
    (hprocessed : plan.message.flags.contains .processed = plan.commitsExchange)
    (hthread : ∀ r ∈ h.records, r.identity.thread = identity.thread) :
    (h.add plan identity unlocked).Agrees (commits ++ (plan.commit? identity).toList) := by
  have hrecords : (h.add plan identity unlocked).records = h.records ++ [plan.record identity] := rfl
  have hrecord : (plan.record identity).isProcessed = plan.commitsExchange := hprocessed
  constructor
  case commits_eq =>
    rw [commits_add, processed_add, updates_add, hprocessed, hagrees.commits_eq]
    omega
  case updates_eq =>
    rw [updates_add, List.countP_append, hagrees.updates_eq, countP_isBundle_commit?]
  case isSome_thread =>
    rw [thread_add, hrecords]
    cases hexchange : plan.commitsExchange with
    | true => simp [hrecord, hexchange]
    | false => simp [hrecord, hexchange, hagrees.isSome_thread, or_and_right, exists_or]
  case thread_eq =>
    intro thread hsome
    rw [thread_add] at hsome
    rw [hrecords, List.forall_mem_append, List.forall_mem_singleton]
    split at hsome
    · cases hsome
      exact ⟨hthread, rfl⟩
    · -- A thread that was there is that of a processed record, and the sender has one
      -- thread only.
      have hbefore := hagrees.thread_eq hsome
      obtain ⟨r, hr, -⟩ := hagrees.isSome_thread.1 (hsome ▸ rfl)
      exact ⟨hbefore, (hthread r hr).symm.trans (hbefore r hr)⟩

end Agrees

end Holdings

/-! ## Desks that agree -/

namespace Desk

/-- The mailbox is numbered, and what each sender holds agrees with the commits for them. -/
structure IsConsistent (d : Desk Mailbox Ledger) : Prop where
  numbered : d.IsNumbered
  agrees : ∀ sender, (d.holdings sender).Agrees (d.commitsOf sender)

/-- The session of a sender agrees with what is stored and told of them: every commit
    shows by a record marked as processed or by a notification of an updated session, the
    latter just for bundles; there is a thread once a record is processed, and it is the
    thread of the sender in the mailbox and of all their records. -/
structure Agrees (d : Desk Mailbox Ledger) (sender : String) : Prop where
  commits_eq : (d.sessions.session sender).commits =
    (d.holdings sender).processed + (d.holdings sender).updates
  updates_eq : (d.holdings sender).updates = (d.commitsOf sender).countP Commit.isBundle
  isSome_thread : (d.sessions.session sender).thread.isSome ↔
    ∃ r ∈ d.messages.recordsOf sender, r.flags.contains .processed
  thread_eq : ∀ {thread}, (d.sessions.session sender).thread = some thread →
    d.messages.threadOf? sender = some thread ∧
      ∀ r ∈ d.messages.recordsOf sender, r.identity.thread = thread

variable {d d' : Desk Mailbox Ledger} {plan : Plan} {identity : StoredIdentity} {acts : List Act}

theorem thread_of_mem_recordsOf (h : d.IsNumbered) {sender : String} {r : StoredRecord}
    (hr : r ∈ d.messages.recordsOf sender) :
    d.messages.threadOf? sender = some r.identity.thread :=
  h.messages.thread_eq (List.mem_map_of_mem hr)

theorem commitsOf_note (d : Desk Mailbox Ledger) (notice : Notice) (sender : String) :
    (d.note (.notified notice)).commitsOf sender = d.commitsOf sender := by
  simp [commitsOf, commits_note, Act.commit?]

/-- What is committed is committed for the sender of the message. -/
theorem CarriesOut.commitsOf_eq (h : d.CarriesOut plan identity acts d') (sender : String) :
    d'.commitsOf sender = d.commitsOf sender ++
      if plan.message.sender = sender then (plan.commit? identity).toList else [] := by
  rw [commitsOf, h.commits_eq, List.filter_append, commitsOf]
  congr 1
  obtain hnone | ⟨_ | _, hsome⟩ := Option.eq_none_or_eq_some plan.material? <;>
    simp [Plan.commit?, KeyMaterial.commit, committer, List.filter_cons, *]

namespace IsConsistent

theorem fresh (prekeys : List UInt32) :
    ({ messages := {}, sessions := { prekeys } } : Desk Mailbox Ledger).IsConsistent where
  numbered := ⟨Mailbox.isNumbered_empty, nofun⟩
  agrees _ := .fresh

theorem agrees_desk (h : d.IsConsistent) (sender : String) : d.Agrees sender where
  commits_eq := (h.agrees sender).commits_eq
  updates_eq := (h.agrees sender).updates_eq
  isSome_thread := (h.agrees sender).isSome_thread
  thread_eq {thread} hsome := by
    have hthread := (h.agrees sender).thread_eq hsome
    obtain ⟨r, hr, -⟩ := (h.agrees sender).isSome_thread.1 (hsome ▸ rfl)
    exact ⟨hthread r hr ▸ thread_of_mem_recordsOf h.numbered hr, hthread⟩

/-- Delivering a message keeps a desk consistent: what its sender holds grows along with
    the commits, and what anyone else holds stays. -/
theorem carriesOut (h : d.IsConsistent) (unlocked : Bool)
    (hcarries : d.CarriesOut plan identity acts d')
    (hcommit : ∀ c, plan.commit? identity = some c → (Ledger.commit c d.sessions).1 = .ok ())
    (hprocessed : plan.message.flags.contains .processed = plan.commitsExchange) :
    (d'.note (.notified (.messageReceived identity.thread unlocked))).IsConsistent where
  numbered := hcarries.isNumbered unlocked h.numbered
  agrees sender := by
    rw [commitsOf_note, hcarries.commitsOf_eq]
    -- A message counts for its sender on both sides, and for nobody else on either.
    by_cases hsender : plan.message.sender = sender
    · rw [if_pos hsender, hcarries.holdings_eq unlocked h.numbered hcommit hsender]
      refine (h.agrees sender).add unlocked hprocessed fun r hr => ?_
      have hnext := Mailbox.thread_nextIdentity (thread_of_mem_recordsOf h.numbered hr)
      rw [← hnext, ← hsender, hcarries.identity_eq]
    · rw [if_neg hsender, List.append_nil,
        hcarries.holdings_eq_of_ne unlocked h.numbered hcommit hsender]
      exact h.agrees sender

end IsConsistent

end Desk

/-! ## Events and runs -/

namespace Intake

/-- The results of a run, one for each event. -/
def results {μ σ : Type} (intake : Intake μ σ) :
    List Event → Receiver μ σ → List (Except IngestError Ingested)
  | [], _ => []
  | e :: events, r => (intake.take e r).1 :: results intake events (intake.take e r).2

variable {limits : Limits} {policy : Policy}

/-- A message that gets whole is stored in memory by its plan, and its thread is told. -/
theorem take_of_message? (h : e.message? limits r.buffer = some m) :
    ∃ identity acts d, r.desk.CarriesOut (r.desk.sessions.plan policy e.secret m) identity acts d ∧
      ((inMemory limits policy).take e r).1 =
        .ok (.stored ((r.desk.sessions.plan policy e.secret m).outcome identity)) ∧
      ((inMemory limits policy).take e r).2.desk =
        d.note (.notified (.messageReceived identity.thread e.secret.isSome)) := by
  rw [Event.message?_eq] at h
  rw [take_eq_assembled]
  rcases hassembled : e.assembled limits r.buffer with
    ⟨cause | ⟨m', source⟩ | ⟨identifier, received, expected⟩, buffer⟩ <;>
    rw [hassembled] at h <;> simp only [inMemory, hassembled]
  · cases h
  · obtain rfl := Option.some.inj h
    obtain ⟨identity, acts, d, hcarries, hdeliver⟩ :=
      deliver_eq limits policy e.secret (m'.classify source) r.desk
    exact ⟨identity, acts, d, hcarries, congrArg Prod.fst hdeliver, congrArg Prod.snd hdeliver⟩
  · cases h

/-- An event stores nothing and leaves the desk alone, or the plan for the message that it
    makes whole is carried out, which is what is reported, and the thread is told. -/
theorem take_carriesOut {e : Event} {r : Receiver Mailbox Ledger}
    {taken : Except IngestError Ingested × Receiver Mailbox Ledger}
    (htake : (inMemory limits policy).take e r = taken) :
    ((∀ outcome, taken.1 ≠ .ok (.stored outcome)) ∧ taken.2.desk = r.desk) ∨
      ∃ m identity acts d, e.message? limits r.buffer = some m ∧
        r.desk.CarriesOut (r.desk.sessions.plan policy e.secret m) identity acts d ∧
        taken.1 = .ok (.stored ((r.desk.sessions.plan policy e.secret m).outcome identity)) ∧
        taken.2.desk = d.note (.notified (.messageReceived identity.thread e.secret.isSome)) := by
  subst htake
  cases hwhole : e.message? limits r.buffer with
  | none =>
    obtain ⟨hdesk, ⟨cause, herror, -⟩ | ⟨result, hresult, hnone⟩⟩ :=
      (inMemory limits policy).take_of_message?_eq_none hwhole
    · exact .inl ⟨by simp [herror], hdesk⟩
    · refine .inl ⟨fun outcome hstored => ?_, hdesk⟩
      obtain rfl := Except.ok.inj (hresult.symm.trans hstored)
      cases hnone
  | some m =>
    obtain ⟨identity, acts, d, hcarries, hresult, hdesk⟩ := take_of_message? hwhole
    exact .inr ⟨m, identity, acts, d, rfl, hcarries, hresult, hdesk⟩

theorem isConsistent_take (e : Event) {r : Receiver Mailbox Ledger} (h : r.desk.IsConsistent) :
    ((inMemory limits policy).take e r).2.desk.IsConsistent := by
  obtain ⟨-, hdesk⟩ | ⟨m, identity, acts, d, hwhole, hcarries, -, hdesk⟩ :=
    take_carriesOut (Eq.refl ((inMemory limits policy).take e r))
  · rwa [hdesk]
  · rw [hdesk]
    exact h.carriesOut _ hcarries (fun c => Ledger.commit_ok_of_plan)
      ((r.desk.sessions.plan_isFor policy e.secret m).processed_eq
        (Event.isFresh_message? hwhole).processed_eq_false)

theorem isConsistent_run (events : List Event) {r : Receiver Mailbox Ledger}
    (h : r.desk.IsConsistent) : ((inMemory limits policy).run events r).desk.IsConsistent :=
  (inMemory limits policy).run_induction (P := fun r => r.desk.IsConsistent) isConsistent_take
    events h

/-- In memory every commit that is planned succeeds, so no outcome is degraded. -/
theorem degraded_eq_none_of_mem_results {events : List Event} {r : Receiver Mailbox Ledger}
    {outcome : Outcome} (h : .ok (.stored outcome) ∈ (inMemory limits policy).results events r) :
    outcome.degraded = none := by
  induction events generalizing r with
  | nil => exact nomatch h
  | cons e events ih =>
    rcases List.mem_cons.1 h with hresult | h
    · obtain ⟨hnone, -⟩ | ⟨m, identity, acts, d, -, -, hstored, -⟩ :=
        take_carriesOut (Eq.refl ((inMemory limits policy).take e r))
      · exact absurd hresult.symm (hnone outcome)
      · cases hresult.trans hstored
        rfl
    · exact ih h

/-- Whatever was received since the stores were empty, the session of every sender agrees
    with what is stored and told of them, and no outcome was degraded. -/
theorem run_agrees (limits : Limits) (policy : Policy) (prekeys : List UInt32)
    (events : List Event) :
    (∀ sender, ((inMemory limits policy).run events (.fresh prekeys)).desk.Agrees sender) ∧
      ∀ outcome,
        .ok (.stored outcome) ∈ (inMemory limits policy).results events (.fresh prekeys) →
          outcome.degraded = none :=
  ⟨(isConsistent_run events (.fresh prekeys)).agrees_desk,
    fun _ => degraded_eq_none_of_mem_results⟩

end Intake

end SecureInbox
