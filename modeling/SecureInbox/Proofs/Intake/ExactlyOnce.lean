import SecureInbox.Proofs.Intake.Entries
import SecureInbox.Proofs.Intake.Event

/-!
# Every message is stored exactly once

Whatever the stores answer, an event that makes a message whole leads to one
insertion, and any other event to none. The result tells which of these
happened and how the insertion ended, and a thread is notified if and only if
something was put into it (`Intake.take_storesOnce`).
-/

namespace SecureInbox

variable {μ σ : Type}

/-- The account of one event: `whole` is the message it made whole, if any, and
    `acts` are the entries it added to the journal. -/
structure StoresOnce (e : Event) (whole : Option Message)
    (result : Except IngestError Ingested) (acts : List Act) : Prop where
  /-- A whole message is inserted once; without one nothing is inserted. -/
  length_insertions : (acts.filterMap Act.insertion?).length = if whole.isSome then 1 else 0
  /-- What is inserted comes from the sender of the whole message and bears its
      time. -/
  inserted : ∀ placement m' answer, .inserted placement m' answer ∈ acts →
    ∃ m, whole = some m ∧ m'.sender = m.sender ∧ m'.timestamp = m.timestamp
  /-- There is no whole message just if the event is meaningless or delivers a
      part. -/
  whole_eq_none_iff : whole = none ↔
    (∃ cause, result = .error (.malformed cause)) ∨
      ∃ identifier received expected, result = .ok (.awaitingParts identifier received expected)
  /-- Then nothing is done at all. -/
  acts_eq_nil : whole = none → acts = []
  /-- An error means that the event is meaningless or that the insertion
      failed. -/
  error : ∀ cause, result = .error cause →
    (∃ reason, cause = .malformed reason ∧ e.IsMalformed reason) ∨
      ∃ placement m fault, cause = .storage fault ∧
        acts.filterMap Act.insertion? = [(placement, m, .error fault)]
  /-- A message is reported as stored just if the insertion succeeded. -/
  stored_iff : (∃ outcome, result = .ok (.stored outcome)) ↔
    ∃ placement m identity, acts.filterMap Act.insertion? = [(placement, m, .ok identity)]
  /-- The report names the identity that was given, and the kind and the flags
      of the message that was inserted. -/
  outcome : ∀ outcome, result = .ok (.stored outcome) →
    ∃ placement m, acts.filterMap Act.insertion? = [(placement, m, .ok outcome.identity)] ∧
      outcome.kind = m.kind ∧ outcome.flags = m.flags
  /-- The thread of a stored message is notified once, at the very end. -/
  notified : ∀ outcome, result = .ok (.stored outcome) →
    acts.getLast? = some (.notified (.messageReceived outcome.identity.thread e.secret.isSome))
  /-- Before that only the update of the session is told, and just if a bundle
      was accepted. -/
  notices : ∀ outcome, result = .ok (.stored outcome) →
    ∃ updates, acts.filterMap Act.notice? =
        updates ++ [.messageReceived outcome.identity.thread e.secret.isSome] ∧
      ((updates = [.securityUpdated outcome.identity.thread] ∧
          ∃ m, whole = some m ∧ AcceptsBundle m acts) ∨
        (updates = [] ∧ ¬∃ m, whole = some m ∧ AcceptsBundle m acts))
  /-- Unless a message was stored, nobody is told anything. -/
  quiet : (∀ outcome, result ≠ .ok (.stored outcome)) →
    acts.filterMap Act.notice? = [] ∧ acts.filterMap Act.job? = []

/-- An event that does nothing is accounted for. -/
theorem StoresOnce.of_nil {e : Event} {result : Except IngestError Ingested}
    (hresult : (∃ cause, result = .error (.malformed cause) ∧ e.IsMalformed cause) ∨
      ∃ identifier received expected,
        result = .ok (.awaitingParts identifier received expected)) :
    StoresOnce e none result [] := by
  have hstored : ∀ outcome, result ≠ .ok (.stored outcome) := by
    rintro outcome rfl
    obtain ⟨_, h, _⟩ | ⟨_, _, _, h⟩ := hresult <;> cases h
  constructor
  case length_insertions => rfl
  case inserted => exact fun _ _ _ h => nomatch h
  case whole_eq_none_iff =>
    exact iff_of_true rfl (hresult.imp_left fun ⟨cause, h, _⟩ => ⟨cause, h⟩)
  case acts_eq_nil => exact fun _ => rfl
  case error =>
    rintro cause rfl
    obtain ⟨reason, h, hreason⟩ | ⟨_, _, _, h⟩ := hresult
    · exact .inl ⟨reason, Except.error.inj h, hreason⟩
    · cases h
  case stored_iff =>
    exact iff_of_false (fun ⟨outcome, h⟩ => hstored outcome h) fun ⟨_, _, _, h⟩ => nomatch h
  case outcome | notified | notices => exact fun outcome h => absurd h (hstored outcome)
  case quiet => exact fun _ => ⟨rfl, rfl⟩

/-- The final notification accepts no bundle. -/
theorem acceptsBundle_append_notified {m : Message} {acts : List Act} {notice : Notice} :
    AcceptsBundle m (acts ++ [.notified notice]) ↔ AcceptsBundle m acts := by
  constructor
  · rintro ⟨x, asked, htrust, hprefix⟩
    refine ⟨x, asked, htrust, (List.prefix_concat_iff.1 hprefix).resolve_left fun h => ?_⟩
    exact nomatch (List.append_inj' h rfl).2
  · rintro ⟨x, asked, htrust, hprefix⟩
    exact ⟨x, asked, htrust, hprefix.trans (List.prefix_append _ _)⟩

theorem insertions_append_notified (acts : List Act) (notice : Notice) :
    (acts ++ [Act.notified notice]).filterMap Act.insertion? =
      acts.filterMap Act.insertion? := by
  simp [Act.insertion?]

/-- The one insertion among the entries is the only one. -/
theorem insertion_unique {acts : List Act} {placement placement' : Placement} {m m' : Message}
    {answer answer' : Except StorageError StoredIdentity}
    (h : acts.filterMap Act.insertion? = [(placement, m, answer)])
    (hmem : .inserted placement' m' answer' ∈ acts) : m' = m := by
  have hmem' : (placement', m', answer') ∈ acts.filterMap Act.insertion? :=
    List.mem_filterMap.2 ⟨_, hmem, rfl⟩
  rw [h, List.mem_singleton] at hmem'
  cases hmem'
  rfl

/-- A message that was stored is accounted for. -/
theorem StoresOnce.of_stored {e : Event} {policy : Policy} {m : Message} {acts : List Act}
    {outcome : Outcome} (h : Routes policy e.secret m acts (.ok outcome)) :
    StoresOnce e (some m) (.ok (.stored outcome))
      (acts ++ [.notified (.messageReceived outcome.identity.thread e.secret.isSome)]) := by
  -- The last notification is added after the route: it is no insertion, so that
  -- all that is known of the insertions of the route stays true.
  have hroute := h.notices_of_ok
  obtain ⟨before, m', hprepares, -, hfiles⟩ := h.files
  cases hfiles with
  | stored hacts _ _ hkind hflags =>
    have hinsertions := (insertions_append_notified acts
      (.messageReceived outcome.identity.thread e.secret.isSome)).trans hacts
    constructor
    case length_insertions => rw [hinsertions]; rfl
    case inserted =>
      intro placement inserted answer hmem
      rw [insertion_unique hinsertions hmem]
      exact ⟨m, rfl, hprepares.sender_eq, hprepares.timestamp_eq⟩
    case whole_eq_none_iff => simp
    case acts_eq_nil => exact fun h => nomatch h
    case error => exact fun _ h => nomatch h
    case stored_iff => exact iff_of_true ⟨_, rfl⟩ ⟨_, _, _, hinsertions⟩
    case outcome =>
      rintro _ ⟨⟩
      exact ⟨_, _, hinsertions, hkind, hflags⟩
    case notified =>
      rintro _ ⟨⟩
      exact List.getLast?_concat
    case notices =>
      rintro _ ⟨⟩
      refine ⟨_, List.filterMap_append, ?_⟩
      simpa [acceptsBundle_append_notified, or_comm, and_comm] using hroute
    case quiet => exact fun h => absurd rfl (h outcome)

/-- A message that the store did not take is accounted for. -/
theorem StoresOnce.of_refused {e : Event} {policy : Policy} {m : Message} {acts : List Act}
    {fault : StorageError} (h : Routes policy e.secret m acts (.error fault)) :
    StoresOnce e (some m) (.error (.storage fault)) acts := by
  have htold := h.told_of_error
  obtain ⟨before, m', hprepares, -, hfiles⟩ := h.files
  cases hfiles with
  | refused hacts =>
    constructor
    case length_insertions => rw [hacts]; rfl
    case inserted =>
      intro placement inserted answer hmem
      rw [insertion_unique hacts hmem]
      exact ⟨m, rfl, hprepares.sender_eq, hprepares.timestamp_eq⟩
    case whole_eq_none_iff => simp
    case acts_eq_nil => exact fun h => nomatch h
    case error =>
      rintro _ ⟨⟩
      exact .inr ⟨_, _, fault, rfl, hacts⟩
    case stored_iff => simp [hacts]
    case outcome | notified | notices => exact fun _ h => nomatch h
    case quiet => exact fun _ => htold

/-- Every event is accounted for, whatever the stores answer: the entries it adds
    to the journal are the calls that took the desk where it is. -/
theorem Intake.take_storesOnce (intake : Intake μ σ) (e : Event) (r : Receiver μ σ) :
    intake.parties.DoesAll r.desk (intake.entries e r) (intake.take e r).2.desk ∧
      StoresOnce e (e.message? intake.limits r.buffer) (intake.take e r).1
        (intake.entries e r) := by
  generalize hresult : (intake.take e r).1 = result
  generalize hdesk : (intake.take e r).2.desk = d
  -- `Intake.Takes` says which entries the event adds; they are those that are read
  -- off the journal, for the journal only grows.
  have hentries : ∀ {acts}, intake.parties.DoesAll r.desk acts d → intake.entries e r = acts :=
    fun hacts => intake.entries_eq (hdesk ▸ hacts)
  have h := hresult ▸ hdesk ▸ intake.take_cases e r
  cases h with
  | malformed hmalformed hwhole =>
    rw [hentries (.nil _)]
    exact ⟨.nil _, hwhole ▸ .of_nil (.inl ⟨_, rfl, hmalformed⟩)⟩
  | awaiting _ _ _ hwhole =>
    rw [hentries (.nil _)]
    exact ⟨.nil _, hwhole ▸ .of_nil (.inr ⟨_, _, _, rfl⟩)⟩
  | whole hwhole hacts hdelivers =>
    rw [hentries hacts]
    refine ⟨hacts, hwhole ▸ ?_⟩
    cases hdelivers with
    | stored h => exact .of_stored h
    | refused h => exact .of_refused h

end SecureInbox
