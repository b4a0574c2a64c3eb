import SecureInbox.Proofs.Intake.Unwrapping

/-!
# The account of a run

Over a mailbox and a ledger, the results of a run tell what the run has done. One record
is stored for each result that says so, under the next number; its thread is told, and
before that of the update of its session, if a bundle was accepted; and its message is
given to the worker if it took the secure path and there is a live secret. Nothing else
is stored, told or scheduled (`Desk.Accounts`). This holds of each event
(`Intake.take_accounts`), and so of a run (`Intake.run_accounts`).

An event fails just if it is meaningless, whatever came before it
(`Intake.exists_error_take_iff`).
-/

namespace SecureInbox

/-! ## What goes with a result -/

/-- The notifications that go with a result. -/
def Ingested.notices (unlocked accepted : Bool) : Ingested → List Notice
  | .stored outcome =>
    (if accepted then [.securityUpdated outcome.identity.thread] else []) ++
      [.messageReceived outcome.identity.thread unlocked]
  | .awaitingParts _ _ _ => []

theorem Ingested.length_notices_le (result : Ingested) (unlocked accepted : Bool) :
    (result.notices unlocked accepted).length ≤ 2 := by
  cases result with
  | stored outcome => cases accepted <;> simp [notices]
  | awaitingParts => exact Nat.zero_le 2

/-- The notifications that go with results, one after the other, where `accepted` tells which
    of them came of an accepted bundle. -/
def Ingested.noticesOf (unlocked : Bool) (results : List Ingested) (accepted : List Bool) :
    List Notice :=
  (results.zip accepted).flatMap fun told => told.1.notices unlocked told.2

@[simp]
theorem Ingested.noticesOf_cons (unlocked : Bool) (result : Ingested) (results : List Ingested)
    (bundle : Bool) (accepted : List Bool) :
    noticesOf unlocked (result :: results) (bundle :: accepted) =
      result.notices unlocked bundle ++ noticesOf unlocked results accepted := rfl

theorem Ingested.length_noticesOf_le (unlocked : Bool) (results : List Ingested)
    (accepted : List Bool) : (noticesOf unlocked results accepted).length ≤ 2 * results.length := by
  induction results generalizing accepted with
  | nil => exact Nat.zero_le _
  | cons result results ih =>
    cases accepted with
    | nil => exact Nat.zero_le _
    | cons bundle accepted =>
      have hfirst := result.length_notices_le unlocked bundle
      have hrest := ih accepted
      rw [noticesOf_cons, List.length_append, List.length_cons]
      omega

/-- The record is the one that the outcome is about. -/
structure Outcome.Describes (outcome : Outcome) (record : StoredRecord) : Prop where
  identity : record.identity = outcome.identity
  kind : record.kind = outcome.kind
  flags : record.flags = outcome.flags

/-- The messages that are scheduled for decryption among those that were stored. -/
def Outcome.scheduled (secret : Option MasterSecret) (outcomes : List Outcome) :
    List StoredIdentity :=
  if secret.isSome then (outcomes.filter (·.path = .secure)).map (·.identity) else []

theorem Outcome.scheduled_append (secret : Option MasterSecret)
    (outcomes outcomes' : List Outcome) :
    scheduled secret (outcomes ++ outcomes') =
      scheduled secret outcomes ++ scheduled secret outcomes' := by
  unfold scheduled
  split
  · rw [List.filter_append, List.map_append]
  · rfl

/-! ## Accepted bundles -/

/-- The message brings a bundle, and the ledger trusts it. -/
def Ledger.accepts (l : Ledger) (m : Message) : Bool :=
  m.kind == .preKeyBundle &&
    match PreKeyBundle.decode m.body with
    | .ok x => l.judge m.sender (.bundle x) == .trusted
    | .error _ => false

theorem Ledger.accepts_iff {l : Ledger} {m : Message} :
    l.accepts m = true ↔ ∃ x, l.Accepts m x := by
  rw [accepts, Bool.and_eq_true, beq_iff_eq]
  cases hdecoded : PreKeyBundle.decode m.body with
  | error fault =>
    refine ⟨fun h => absurd h.2 Bool.false_ne_true, fun ⟨x, hx⟩ => ?_⟩
    cases hdecoded.symm.trans hx.decoded
  | ok x =>
    constructor
    · rintro ⟨hkind, htrusted⟩
      exact ⟨x, hkind, hdecoded, beq_iff_eq.1 htrusted⟩
    · rintro ⟨y, hkind, hdecoded', htrusted⟩
      obtain rfl := Except.ok.inj (hdecoded.symm.trans hdecoded')
      exact ⟨hkind, beq_iff_eq.2 htrusted⟩

namespace Intake

variable {μ : Type} (intake : Intake μ Ledger)

/-- The event makes a message whole that brings a bundle, and the ledger trusts it. -/
def accepts (e : Event) (r : Receiver μ Ledger) : Bool :=
  (e.message? intake.limits r.buffer).any r.desk.sessions.accepts

theorem accepts_iff {intake : Intake μ Ledger} {e : Event} {r : Receiver μ Ledger} :
    intake.accepts e r = true ↔ ∃ m x, intake.Accepts e r m x := by
  unfold accepts
  cases hwhole : e.message? intake.limits r.buffer with
  | none => simp [Accepts, hwhole]
  | some m => simp [Accepts, hwhole, Ledger.accepts_iff]

/-- Which events of a run bring a bundle that is accepted. -/
def acceptances : List Event → Receiver μ Ledger → List Bool
  | [], _ => []
  | e :: events, r => intake.accepts e r :: acceptances events (intake.take e r).2

end Intake

/-! ## What a plan tells -/

section

variable {policy : Policy} {secret : Option MasterSecret} {m : Message}

/-- Carrying a plan out is told as it is reported: the session is updated just if a bundle
    is accepted. -/
theorem Ledger.notices_plan (l : Ledger) (identity : StoredIdentity) (unlocked : Bool) :
    (l.plan policy secret m).notices identity unlocked =
      (Ingested.stored ((l.plan policy secret m).outcome identity)).notices unlocked
        (l.accepts m) := by
  cases haccepts : l.accepts m with
  | true =>
    obtain ⟨x, hx⟩ := accepts_iff.1 haccepts
    rw [hx.plan_eq]
    rfl
  | false =>
    have hnone : (l.plan policy secret m).update? identity = none := by
      unfold Plan.update?
      split
      · rename_i x hx
        exact absurd (accepts_iff.2 ⟨x, accepts_of_material? hx⟩) (by simp [haccepts])
      · rfl
    rw [Plan.notices, hnone]
    rfl

/-- What takes the secure path is scheduled with the live secret, and nothing else is. -/
theorem Plan.IsFor.scheduled_eq {plan : Plan} (h : plan.IsFor policy secret m)
    (identity : StoredIdentity) :
    (plan.job? identity).toList.map (·.identity) =
      Outcome.scheduled secret [plan.outcome identity] := by
  have hstandard : (Parties.standardPlace policy secret).2 ≠ .secure := by
    unfold Parties.standardPlace
    split
    · simp
    · split <;> simp
  -- The standard path is never the secure one, so what takes it is not among the scheduled.
  cases h with
  | secure | bundle =>
    cases secret <;> rfl
  | aside | exchange =>
    simp [Plan.job?, Plan.outcome, Plan.standard, Outcome.scheduled, Outcome.ofMessage, hstandard]

end

/-! ## Accounts -/

/-- How a desk comes from another by events with these results, where `accepted` tells
    which of them brought an accepted bundle. -/
structure Desk.Accounts (secret : Option MasterSecret) (results : List Ingested)
    (accepted : List Bool) (d d' : Desk Mailbox Ledger) : Prop where
  /-- There are new records for what was stored, with the next numbers. -/
  records : ∃ added, d'.messages.records = d.messages.records ++ added ∧
    List.Forall₂ Outcome.Describes (results.filterMap Ingested.outcome?) added ∧
      added.map (·.identity.message.val) =
        List.range' (d.messages.lastMessage + 1) added.length ∧
      d'.messages.lastMessage = d.messages.lastMessage + added.length
  notices : d'.notices = d.notices ++ Ingested.noticesOf secret.isSome results accepted
  jobs : d'.jobs.map (·.identity) = d.jobs.map (·.identity) ++
    Outcome.scheduled secret (results.filterMap Ingested.outcome?)

namespace Desk.Accounts

variable {secret : Option MasterSecret} {result : Ingested} {results : List Ingested}
  {bundle : Bool} {accepted : List Bool} {d d' d'' : Desk Mailbox Ledger}

theorem nil (secret : Option MasterSecret) (d : Desk Mailbox Ledger) :
    Accounts secret [] [] d d where
  records := ⟨[], by simp⟩
  notices := (List.append_nil _).symm
  jobs := by simp [Outcome.scheduled]

/-- The account of one event is put before that of those after it. -/
theorem cons (h : Accounts secret [result] [bundle] d d')
    (hrest : Accounts secret results accepted d' d'') :
    Accounts secret (result :: results) (bundle :: accepted) d d'' := by
  have houtcomes : (result :: results).filterMap Ingested.outcome? =
      [result].filterMap Ingested.outcome? ++ results.filterMap Ingested.outcome? := by
    rw [← List.filterMap_append, List.singleton_append]
  constructor
  case records =>
    obtain ⟨added, hadded, hdescribes, hnumbers, hlast⟩ := h.records
    obtain ⟨added', hadded', hdescribes', hnumbers', hlast'⟩ := hrest.records
    refine ⟨added ++ added', ?_, ?_, ?_, ?_⟩
    · rw [hadded', hadded, List.append_assoc]
    · rw [houtcomes]
      exact List.rel_append hdescribes hdescribes'
    · -- The numbers go on where those of the first event have ended.
      rw [List.map_append, hnumbers, hnumbers', hlast, List.length_append, Nat.add_right_comm,
        List.range'_append_1]
    · rw [hlast', hlast, List.length_append, Nat.add_assoc]
  case notices =>
    rw [hrest.notices, h.notices, List.append_assoc, Ingested.noticesOf_cons,
      Ingested.noticesOf_cons, List.append_assoc]
    rfl
  case jobs =>
    rw [hrest.jobs, h.jobs, houtcomes, Outcome.scheduled_append, List.append_assoc]

/-- Nothing was stored, told or scheduled. -/
theorem of_outcome?_eq_none (hresult : result.outcome? = none) :
    Accounts secret [result] [bundle] d d := by
  cases result with
  | stored => cases hresult
  | awaitingParts =>
    exact ⟨⟨[], by simp [Ingested.outcome?]⟩, (List.append_nil _).symm,
      by simp [Ingested.outcome?, Outcome.scheduled]⟩

/-- A plan was carried out, and the thread of the message was told. -/
theorem of_carriesOut {policy : Policy} {m : Message} {identity : StoredIdentity} {acts : List Act}
    (h : d.CarriesOut (d.sessions.plan policy secret m) identity acts d') :
    Accounts secret [.stored ((d.sessions.plan policy secret m).outcome identity)]
      [d.sessions.accepts m] d
      (d'.note (.notified (.messageReceived identity.thread secret.isSome))) := by
  constructor
  case records =>
    refine ⟨[Plan.record _ identity], ?_, .cons ⟨rfl, rfl, rfl⟩ .nil, ?_, ?_⟩
    · rw [Desk.messages_note, h.messages_eq, Mailbox.records_insert, h.record_eq]
    · rw [h.identity_eq]
      rfl
    · rw [Desk.messages_note, h.messages_eq]
      rfl
  case notices =>
    rw [h.notices_eq, Ledger.notices_plan, Ingested.noticesOf_cons]
    exact congrArg _ (List.append_nil _).symm
  case jobs =>
    simp only [Desk.jobs_note, h.jobs_eq, Act.job?, Option.toList_none, List.append_nil,
      List.map_append, (d.sessions.plan_isFor policy secret m).scheduled_eq]
    rfl

end Desk.Accounts

/-! ## Events and runs -/

namespace Intake

variable {limits : Limits} {policy : Policy} {e : Event} {r : Receiver Mailbox Ledger}

/-- In memory an event fails just if it is meaningless. -/
theorem exists_error_take_iff :
    (∃ error, ((inMemory limits policy).take e r).1 = .error error) ↔
      ∃ cause, e.IsMalformed cause := by
  constructor
  · rintro ⟨error, herror⟩
    cases hwhole : e.message? limits r.buffer with
    | none =>
      obtain ⟨-, ⟨cause, -, hmalformed⟩ | ⟨result, hresult, -⟩⟩ :=
        (inMemory limits policy).take_of_message?_eq_none hwhole
      · exact ⟨cause, hmalformed⟩
      · cases hresult.symm.trans herror
    | some m =>
      obtain ⟨identity, acts, d, -, hresult, -⟩ := take_of_message? hwhole
      cases hresult.symm.trans herror
  · rintro ⟨cause, h⟩
    exact (inMemory limits policy).exists_error_of_isMalformed h r

/-- The account of one event that is not refused. -/
theorem take_accounts {result : Ingested}
    (h : ((inMemory limits policy).take e r).1 = .ok result) :
    r.desk.Accounts e.secret [result] [(inMemory limits policy).accepts e r]
      ((inMemory limits policy).take e r).2.desk := by
  cases hwhole : e.message? limits r.buffer with
  | none =>
    obtain ⟨hdesk, ⟨cause, herror, -⟩ | ⟨_, hresult, hnone⟩⟩ :=
      (inMemory limits policy).take_of_message?_eq_none hwhole
    · cases herror.symm.trans h
    · obtain rfl := Except.ok.inj (hresult.symm.trans h)
      rw [hdesk]
      exact .of_outcome?_eq_none hnone
  | some m =>
    have haccepts : (inMemory limits policy).accepts e r = r.desk.sessions.accepts m := by
      rw [accepts, inMemory, hwhole, Option.any_some]
    obtain ⟨identity, acts, d, hcarries, hresult, hdesk⟩ := take_of_message? hwhole
    obtain rfl := Except.ok.inj (hresult.symm.trans h)
    rw [haccepts, hdesk]
    exact .of_carriesOut hcarries

/-- The account of a run in which no event is refused. -/
theorem run_accounts {secret : Option MasterSecret} {events : List Event} {results : List Ingested}
    (hsecret : ∀ e ∈ events, e.secret = secret)
    (h : (inMemory limits policy).results events r = results.map .ok) :
    r.desk.Accounts secret results ((inMemory limits policy).acceptances events r)
      ((inMemory limits policy).run events r).desk := by
  induction events generalizing r results with
  | nil =>
    obtain rfl : results = [] := List.map_eq_nil_iff.1 h.symm
    exact .nil secret r.desk
  | cons e events ih =>
    cases results with
    | nil => cases h
    | cons result results =>
      obtain ⟨hresult, hrest⟩ := List.cons.inj h
      obtain ⟨rfl, hsecret⟩ := List.forall_mem_cons.1 hsecret
      exact (take_accounts hresult).cons (ih hsecret hrest)

end Intake

end SecureInbox
