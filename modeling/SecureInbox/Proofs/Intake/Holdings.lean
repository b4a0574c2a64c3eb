import SecureInbox.Proofs.Intake.Memory
import SecureInbox.Proofs.Intake.Renaming

/-!
# What a sender holds

The records and the jobs of a sender, the notifications for their thread and their
session are their *holdings* (`Desk.holdings`). What is done with a message of the
sender adds to them, and all that matters for what is added is the plan and the identity
the message got (`Desk.CarriesOut.holdings_eq`). A message of anyone else leaves them as
they are (`Desk.CarriesOut.holdings_eq_of_ne`).
-/

namespace SecureInbox

open SessionStore (committer)

/-- The thread that a notification is about. -/
def Notice.thread : Notice → ThreadId
  | .messageReceived thread _ => thread
  | .securityUpdated thread => thread

/-- All there is of a sender. -/
structure Holdings where
  records : List StoredRecord
  jobs : List DecryptionJob
  /-- The notifications for the thread of the sender. -/
  notices : List Notice
  session : Session
  deriving DecidableEq

/-- What a sender holds at a desk. -/
def Desk.holdings (d : Desk Mailbox Ledger) (sender : String) : Holdings where
  records := d.messages.recordsOf sender
  jobs := d.jobs.filter (·.sender == sender)
  notices := d.notices.filter fun n => d.messages.threadOf? sender = some n.thread
  session := d.sessions.session sender

/-- The record of the message, once it has an identity. -/
def Plan.record (plan : Plan) (identity : StoredIdentity) : StoredRecord where
  identity := identity
  sender := plan.message.sender
  body := plan.message.body
  timestamp := plan.message.timestamp
  kind := plan.message.kind
  flags := plan.message.flags
  inbox := plan.placement.inbox

/-- All that is told the thread of the message. -/
def Plan.notices (plan : Plan) (identity : StoredIdentity) (unlocked : Bool) : List Notice :=
  (plan.update? identity).toList ++ [.messageReceived identity.thread unlocked]

theorem Plan.thread_of_mem_notices {plan : Plan} {identity : StoredIdentity} {unlocked : Bool}
    {n : Notice} (h : n ∈ plan.notices identity unlocked) : n.thread = identity.thread := by
  rcases List.mem_append.1 h with h | h
  · rw [Option.mem_toList, Plan.update?] at h
    split at h
    · cases h
      rfl
    · cases h
  · cases List.mem_singleton.1 h
    rfl

namespace Holdings

/-- The holdings after a plan was carried out and the thread was told. -/
def add (h : Holdings) (plan : Plan) (identity : StoredIdentity) (unlocked : Bool) : Holdings where
  records := h.records ++ [plan.record identity]
  jobs := h.jobs ++ (plan.job? identity).toList
  notices := h.notices ++ plan.notices identity unlocked
  session := ((plan.commit? identity).map (·.settle h.session)).getD h.session

/-- The holdings under other names. -/
def rename (h : Holdings) (ρ : Renaming) : Holdings where
  records := h.records.map ρ.record
  jobs := h.jobs.map ρ.job
  notices := h.notices.map ρ.notice
  session := ρ.session h.session

end Holdings

/-! ## Plans under other names -/

section

variable (plan : Plan) (identity : StoredIdentity) (ρ : Renaming)

theorem Plan.map_job? : (plan.job? identity).map ρ.job = plan.job? (ρ.identity identity) := by
  cases hsecret : plan.secret? <;> simp only [job?, hsecret] <;> rfl

theorem Plan.map_notices (unlocked : Bool) :
    (plan.notices identity unlocked).map ρ.notice =
      plan.notices (ρ.identity identity) unlocked := by
  obtain h | ⟨_ | _, h⟩ := Option.eq_none_or_eq_some plan.material? <;>
    simp only [notices, update?, h] <;> rfl

theorem Plan.session_settle (s : Session) :
    ρ.session (((plan.commit? identity).map (·.settle s)).getD s) =
      ((plan.commit? (ρ.identity identity)).map (·.settle (ρ.session s))).getD (ρ.session s) := by
  obtain h | ⟨_ | _, h⟩ := Option.eq_none_or_eq_some plan.material? <;>
    simp only [commit?, h] <;> rfl

/-- Carrying a plan out is the same under other names. -/
theorem Holdings.rename_add (h : Holdings) (unlocked : Bool) :
    (h.add plan identity unlocked).rename ρ =
      (h.rename ρ).add plan (ρ.identity identity) unlocked := by
  simp only [rename, add, List.map_append, ← Option.toList_map, plan.map_job?, plan.map_notices,
    plan.session_settle]
  rfl

end

/-! ## Numbers at a desk -/

namespace Desk

theorem messages_note (d : Desk Mailbox Ledger) (act : Act) :
    (d.note act).messages = d.messages := rfl

theorem jobs_note (d : Desk Mailbox Ledger) (act : Act) :
    (d.note act).jobs = d.jobs ++ act.job?.toList := by
  cases h : act.job? <;> simp [jobs, note, h]

theorem notices_note (d : Desk Mailbox Ledger) (act : Act) :
    (d.note act).notices = d.notices ++ act.notice?.toList := by
  cases h : act.notice? <;> simp [notices, note, h]

/-- The mailbox is numbered, and the notifications are about threads there are. -/
structure IsNumbered (d : Desk Mailbox Ledger) : Prop where
  messages : d.messages.IsNumbered
  notices : ∀ n ∈ d.notices, n.thread.val ≤ d.messages.threads.length

namespace CarriesOut

variable {plan : Plan} {identity : StoredIdentity} {acts : List Act} {d d' : Desk Mailbox Ledger}
  {sender : String}

theorem identity_eq (h : d.CarriesOut plan identity acts d') :
    identity = d.messages.nextIdentity plan.message.sender :=
  (congrArg Prod.fst h.messages).symm

theorem messages_eq (h : d.CarriesOut plan identity acts d') :
    d'.messages = d.messages.after plan.placement plan.message :=
  (congrArg Prod.snd h.messages).symm

theorem record_eq (h : d.CarriesOut plan identity acts d') :
    plan.record identity = d.messages.nextRecord plan.placement plan.message := by
  rw [Plan.record, Mailbox.nextRecord, h.identity_eq]

theorem recordsOf_eq (h : d.CarriesOut plan identity acts d')
    (hsender : plan.message.sender = sender) :
    d'.messages.recordsOf sender = d.messages.recordsOf sender ++ [plan.record identity] := by
  rw [h.messages_eq, Mailbox.recordsOf_insert hsender, h.record_eq]

theorem recordsOf_eq_of_ne (h : d.CarriesOut plan identity acts d')
    (hne : plan.message.sender ≠ sender) :
    d'.messages.recordsOf sender = d.messages.recordsOf sender := by
  rw [h.messages_eq, Mailbox.recordsOf_insert_of_ne hne]

theorem identitiesOf_eq (h : d.CarriesOut plan identity acts d')
    (hsender : plan.message.sender = sender) :
    d'.messages.identitiesOf sender = d.messages.identitiesOf sender ++ [identity] := by
  rw [Mailbox.identitiesOf, h.recordsOf_eq hsender, List.map_append]
  rfl

/-- The message is in the thread of its sender. -/
theorem threadOf?_eq (h : d.CarriesOut plan identity acts d') :
    d'.messages.threadOf? plan.message.sender = some identity.thread := by
  rw [h.messages_eq, Mailbox.threadOf?_insert, if_pos rfl, h.identity_eq]

/-- The jobs after a plan was carried out. -/
theorem jobs_eq (h : d.CarriesOut plan identity acts d') :
    d'.jobs = d.jobs ++ (plan.job? identity).toList := by
  rw [Desk.jobs, h.journal, List.filterMap_append, h.jobs, Desk.jobs]

/-- The notifications after a plan was carried out and the thread was told. -/
theorem notices_eq (h : d.CarriesOut plan identity acts d') (unlocked : Bool) :
    (d'.note (.notified (.messageReceived identity.thread unlocked))).notices =
      d.notices ++ plan.notices identity unlocked := by
  rw [notices_note, Desk.notices, h.journal, List.filterMap_append, h.notices, Desk.notices,
    List.append_assoc]
  rfl

/-- A commit settles the session of the sender of the message, and no other. -/
theorem session_eq (h : d.CarriesOut plan identity acts d')
    (hcommit : ∀ c, plan.commit? identity = some c → (Ledger.commit c d.sessions).1 = .ok ())
    (sender : String) :
    d'.sessions.session sender =
      if plan.message.sender = sender then
        ((plan.commit? identity).map (·.settle (d.sessions.session sender))).getD
          (d.sessions.session sender)
      else d.sessions.session sender := by
  rw [h.sessions]
  cases hc : plan.commit? identity with
  | none => simp
  | some c =>
    have hcommitter : committer c = plan.message.sender := by
      obtain ⟨k, -, rfl⟩ := Option.map_eq_some_iff.1 hc
      cases k <;> rfl
    simpa [hcommitter] using Ledger.session_after (hcommit c hc) sender

/-- The mailbox stays numbered. -/
theorem isNumbered_messages (h : d.CarriesOut plan identity acts d') (hd : d.IsNumbered) :
    d'.messages.IsNumbered :=
  h.messages_eq ▸ hd.messages.insert plan.placement plan.message

variable (unlocked : Bool)

/-- The desk stays numbered. -/
theorem isNumbered (h : d.CarriesOut plan identity acts d') (hd : d.IsNumbered) :
    (d'.note (.notified (.messageReceived identity.thread unlocked))).IsNumbered where
  messages := h.isNumbered_messages hd
  notices n hn := by
    rw [h.notices_eq, List.mem_append] at hn
    rcases hn with hn | hn
    · refine (hd.notices n hn).trans ?_
      have hle := d.messages.length_threads_le plan.placement plan.message
      rwa [← h.messages_eq] at hle
    · rw [Plan.thread_of_mem_notices hn]
      exact ((h.isNumbered_messages hd).one_le_and_le_of_threadOf? h.threadOf?_eq).2

/-- The notifications for a sender that were there are for the same sender as before. -/
theorem filter_notices (h : d.CarriesOut plan identity acts d') (hd : d.IsNumbered)
    (sender : String) :
    d.notices.filter (fun n => d'.messages.threadOf? sender = some n.thread) =
      d.notices.filter (fun n => d.messages.threadOf? sender = some n.thread) := by
  refine List.filter_congr fun n hn => ?_
  rw [h.messages_eq, decide_eq_decide]
  exact Mailbox.threadOf?_insert_eq_some (hd.notices n hn)

/-- The holdings of anyone after a plan was carried out and the thread was told. -/
theorem holdings_told (h : d.CarriesOut plan identity acts d') (hd : d.IsNumbered)
    (sender : String) :
    (d'.note (.notified (.messageReceived identity.thread unlocked))).holdings sender =
      { records := d'.messages.recordsOf sender
        jobs := d.jobs.filter (·.sender == sender) ++
          (plan.job? identity).toList.filter (·.sender == sender)
        notices := d.notices.filter (fun n => d.messages.threadOf? sender = some n.thread) ++
          (plan.notices identity unlocked).filter
            fun n => d'.messages.threadOf? sender = some n.thread
        session := d'.sessions.session sender } := by
  rw [holdings, h.notices_eq, jobs_note, h.jobs_eq, ← h.filter_notices hd, ← List.filter_append]
  simp only [Act.job?, Option.toList_none, List.append_nil, List.filter_append]
  rfl

/-- A message of the sender adds to the holdings. -/
theorem holdings_eq (h : d.CarriesOut plan identity acts d') (hd : d.IsNumbered)
    (hcommit : ∀ c, plan.commit? identity = some c → (Ledger.commit c d.sessions).1 = .ok ())
    (hsender : plan.message.sender = sender) :
    (d'.note (.notified (.messageReceived identity.thread unlocked))).holdings sender =
      (d.holdings sender).add plan identity unlocked := by
  subst hsender
  have hjobs : (plan.job? identity).toList.filter (·.sender == plan.message.sender) =
      (plan.job? identity).toList := by
    cases hsecret : plan.secret? <;> simp [Plan.job?, hsecret, Parties.jobFor]
  have hnotices : (plan.notices identity unlocked).filter
      (fun n => d'.messages.threadOf? plan.message.sender = some n.thread) =
        plan.notices identity unlocked := by
    refine List.filter_eq_self.2 fun n hn => ?_
    rw [h.threadOf?_eq, Plan.thread_of_mem_notices hn]
    exact decide_eq_true rfl
  rw [h.holdings_told unlocked hd, h.recordsOf_eq rfl, hjobs, hnotices, h.session_eq hcommit,
    if_pos rfl]
  rfl

/-- A message of anyone else leaves the holdings alone. -/
theorem holdings_eq_of_ne (h : d.CarriesOut plan identity acts d') (hd : d.IsNumbered)
    (hcommit : ∀ c, plan.commit? identity = some c → (Ledger.commit c d.sessions).1 = .ok ())
    (hne : plan.message.sender ≠ sender) :
    (d'.note (.notified (.messageReceived identity.thread unlocked))).holdings sender =
      d.holdings sender := by
  have hjobs : (plan.job? identity).toList.filter (·.sender == sender) = [] := by
    cases hsecret : plan.secret? <;> simp [Plan.job?, hsecret, Parties.jobFor, hne]
  have hnotices : (plan.notices identity unlocked).filter
      (fun n => d'.messages.threadOf? sender = some n.thread) = [] := by
    refine List.filter_eq_nil_iff.2 fun n hn hthread => hne ?_
    rw [Plan.thread_of_mem_notices hn] at hthread
    exact (h.isNumbered_messages hd).threadOf?_inj h.threadOf?_eq (of_decide_eq_true hthread)
  rw [h.holdings_told unlocked hd, h.recordsOf_eq_of_ne hne, hjobs, hnotices,
    h.session_eq hcommit, if_neg hne, List.append_nil, List.append_nil]
  rfl

end CarriesOut

end Desk

end SecureInbox
