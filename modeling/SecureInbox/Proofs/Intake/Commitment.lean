import SecureInbox.Proofs.Intake.Entries

/-!
# Commits follow trust

A session store may answer whatever it likes and fail at any call. Still, one
route tries one commit at most, and only where the answers of this very route
speak for it (`Precedes`): a key exchange that is answered is committed after its
message was inserted as processed, and a bundle at once.

What becomes of the commit shows in the result (`Routes.triesCommit`): the outcome
is degraded by the fault of the commit and by nothing else. A bundle whose commit
failed is stored itself, with the flag of the fault (`Routes.insertion_of_failed`).
`Parties.route_commitsOnTrust` puts this together.
-/

namespace SecureInbox

open Parties (standardPlace)

variable {μ σ : Type} {policy : Policy} {secret : Option MasterSecret} {m : Message}
  {c : Commit} {asked stored acts : List Act} {result : Except StorageError Outcome}

/-! ## The one commit -/

/-- The message lets `c` be committed, as the answers to `asked` show. -/
inductive Earns (policy : Policy) (secret : Option MasterSecret) (m : Message) :
    Commit → List Act → Prop
  | exchange {x : KeyExchange} {asked : List Act} (thread : ThreadId) :
      TrustsExchange policy secret m x asked →
      Earns policy secret m (.exchange m.sender x thread) asked
  | bundle {x : PreKeyBundle} {asked : List Act} :
      TrustsBundle m x asked → Earns policy secret m (.bundle m.sender x) asked

theorem Earns.questions (h : Earns policy secret m c asked) : ∀ act ∈ asked, act.isQuestion := by
  cases h with
  | exchange _ h => exact h.judged.questions
  | bundle h => exact h.judged.questions

/-- What comes before a commit: the questions that earn it, and what is entered between
    them and the commit. The message of a key exchange is stored first, and a bundle is
    committed at once. -/
inductive Precedes (policy : Policy) (secret : Option MasterSecret) (m : Message) :
    List Act → List Act → Commit → Prop
  | exchange {x : KeyExchange} {asked stored : List Act} {outcome : Outcome} :
      TrustsExchange policy secret m x asked →
      StoresStandard policy secret (m.withFlag .processed) stored (.ok outcome) →
      Precedes policy secret m asked stored (.exchange m.sender x outcome.identity.thread)
  | bundle {x : PreKeyBundle} {asked : List Act} :
      TrustsBundle m x asked → Precedes policy secret m asked [] (.bundle m.sender x)

namespace Precedes

theorem earns (h : Precedes policy secret m asked stored c) : Earns policy secret m c asked := by
  cases h with
  | exchange htrust => exact .exchange _ htrust
  | bundle htrust => exact .bundle htrust

theorem not_session (h : Precedes policy secret m asked stored c) :
    ∀ act ∈ stored, act.isSession = false := by
  cases h with
  | exchange _ hstored => exact hstored.not_session
  | bundle => simp

theorem not_commit (h : Precedes policy secret m asked stored c) :
    ∀ act ∈ asked ++ stored, act.isCommit = false :=
  List.forall_mem_append.2
    ⟨not_commit_of_questions h.earns.questions, not_commit_of_not_session h.not_session⟩

end Precedes

/-- The entries try one commit, which is answered like this, or none. After it the session
    store is not called. -/
inductive TriesCommit (policy : Policy) (secret : Option MasterSecret) (m : Message) :
    List Act → Option (Except KeyError Unit) → Prop
  | none {acts : List Act} : (∀ act ∈ acts, act.isCommit = false) →
      TriesCommit policy secret m acts none
  | one {asked stored after : List Act} {c : Commit} {answer : Except KeyError Unit} :
      Precedes policy secret m asked stored c → (∀ act ∈ after, act.isSession = false) →
      TriesCommit policy secret m (asked ++ stored ++ .committed c answer :: after) (some answer)

namespace TriesCommit

theorem of_questions (hasked : ∀ act ∈ asked, act.isQuestion)
    (hacts : ∀ act ∈ acts, act.isSession = false) :
    TriesCommit policy secret m (asked ++ acts) .none :=
  .none (List.forall_mem_append.2
    ⟨not_commit_of_questions hasked, not_commit_of_not_session hacts⟩)

theorem bundle {x : PreKeyBundle} {answer : Except KeyError Unit} (h : TrustsBundle m x asked)
    (hacts : ∀ act ∈ acts, act.isSession = false) :
    TriesCommit policy secret m (asked ++ .committed (.bundle m.sender x) answer :: acts)
      (some answer) := by
  have hone : TriesCommit policy secret m
      (asked ++ [] ++ .committed (.bundle m.sender x) answer :: acts) (some answer) :=
    .one (.bundle h) hacts
  rwa [List.append_nil] at hone

theorem append {acts' : List Act} {answer? : Option (Except KeyError Unit)}
    (h : TriesCommit policy secret m acts answer?) (hacts : ∀ act ∈ acts', act.isSession = false) :
    TriesCommit policy secret m (acts ++ acts') answer? := by
  cases h with
  | none h =>
    exact .none (List.forall_mem_append.2 ⟨h, not_commit_of_not_session hacts⟩)
  | one hprecedes hafter =>
    rw [List.append_assoc, List.cons_append]
    exact .one hprecedes (List.forall_mem_append.2 ⟨hafter, hacts⟩)

end TriesCommit

/-- How the answer to a commit degrades the outcome. -/
def degradedFor : Except KeyError Unit → Option Degraded
  | .ok () => none
  | .error e => some (.sessionCommitFailed e.message)

theorem StoresStandard.degraded_eq_none (h : StoresStandard policy secret m acts result) :
    ∀ outcome, result = .ok outcome → outcome.degraded = none := by
  rintro outcome rfl
  cases h
  rfl

theorem StoresSecure.degraded_eq_none (h : StoresSecure secret m acts result) :
    ∀ outcome, result = .ok outcome → outcome.degraded = none := by
  rintro outcome rfl
  cases h
  rfl

/-- Routing tries one commit or none, and the outcome is degraded as the answer says. -/
theorem Routes.triesCommit (h : Routes policy secret m acts result) :
    ∃ answer?, TriesCommit policy secret m acts answer? ∧
      ∀ outcome, result = .ok outcome → outcome.degraded = answer?.bind degradedFor := by
  cases h with
  | ciphertext _ hstored =>
    exact ⟨none, .none (not_commit_of_not_session hstored.not_session), hstored.degraded_eq_none⟩
  | setAside haside hstored =>
    exact ⟨none, .of_questions haside.questions hstored.not_session, hstored.degraded_eq_none⟩
  | exchangeRefused htrust hstored =>
    exact ⟨none, .of_questions htrust.judged.questions hstored.not_session, fun _ h => nomatch h⟩
  | exchangeCommitted htrust hstored =>
    exact ⟨some (.ok ()), .one (.exchange htrust hstored) (by simp), hstored.degraded_eq_none⟩
  | @exchangeUncommitted _ _ _ _ e htrust hstored =>
    refine ⟨some (.error e), .one (.exchange htrust hstored) (by simp), ?_⟩
    rintro outcome ⟨⟩
    rfl
  | @bundleUncommitted _ _ _ e stored htrust hstored =>
    refine ⟨some (.error e), .bundle htrust hstored.not_session, fun outcome houtcome => ?_⟩
    cases stored with
    | error => exact nomatch houtcome
    | ok =>
      cases houtcome
      rfl
  | bundleRefused htrust hstored =>
    exact ⟨some (.ok ()), .bundle htrust hstored.not_session, fun _ h => nomatch h⟩
  | bundleAccepted htrust hstored =>
    exact ⟨some (.ok ()), (TriesCommit.bundle htrust hstored.not_session).append
      (by simp [Act.isSession]), hstored.degraded_eq_none⟩

/-- Where there is one commit only, entries split at a commit in one way only. -/
theorem eq_of_split_at_commit {before after before' after' : List Act} {act act' : Act}
    (hbefore : ∀ act ∈ before, act.isCommit = false) (hafter : ∀ act ∈ after, act.isCommit = false)
    (hact' : act'.isCommit = true) (h : before ++ act :: after = before' ++ act' :: after') :
    before = before' ∧ act = act' := by
  induction before generalizing before' with
  | nil =>
    cases before' with
    | nil => exact ⟨rfl, (List.cons.inj h).1⟩
    | cons _ before' =>
      have hmem : act' ∈ after := (List.cons.inj h).2 ▸ by simp
      exact absurd hact' (by simp [hafter act' hmem])
  | cons head before ih =>
    cases before' with
    | nil =>
      have hmem : act' ∈ head :: before := (List.cons.inj h).1 ▸ List.mem_cons_self
      exact absurd hact' (by simp [hbefore act' hmem])
    | cons _ before' =>
      obtain ⟨rfl, htail⟩ := List.cons.inj h
      obtain ⟨rfl, rfl⟩ := ih (fun act hact => hbefore act (List.mem_cons_of_mem _ hact)) htail
      exact ⟨rfl, rfl⟩

namespace TriesCommit

variable {answer? : Option (Except KeyError Unit)}

theorem countP_le_one (h : TriesCommit policy secret m acts answer?) :
    acts.countP Act.isCommit ≤ 1 := by
  have hnone : ∀ {acts : List Act}, (∀ act ∈ acts, act.isCommit = false) →
      acts.countP Act.isCommit = 0 := fun h => by simpa using h
  cases h with
  | none h =>
    rw [hnone h]
    exact Nat.zero_le 1
  | one hprecedes hafter =>
    rw [List.countP_append, List.countP_cons, hnone hprecedes.not_commit,
      hnone (not_commit_of_not_session hafter)]
    exact Nat.le_refl 1

/-- Wherever a commit stands, it is the one that was tried, and what has to precede it
    does. -/
theorem precedes (h : TriesCommit policy secret m acts answer?) {before after : List Act}
    {answer : Except KeyError Unit} (hacts : acts = before ++ .committed c answer :: after) :
    answer? = some answer ∧
      ∃ asked stored, before = asked ++ stored ∧ Precedes policy secret m asked stored c := by
  cases h with
  | none h => exact Bool.noConfusion (h (.committed c answer) (by simp [hacts]))
  | one hprecedes hafter =>
    obtain ⟨rfl, hact⟩ := eq_of_split_at_commit hprecedes.not_commit
      (not_commit_of_not_session hafter) rfl hacts
    cases hact
    exact ⟨rfl, _, _, rfl, hprecedes⟩

/-- The commits that the entries show are answered as the one that was tried. -/
theorem exists_mem_iff (h : TriesCommit policy secret m acts answer?)
    (answer : Except KeyError Unit) :
    (∃ c, .committed c answer ∈ acts) ↔ answer? = some answer := by
  constructor
  · rintro ⟨c, hmem⟩
    obtain ⟨before, after, hacts⟩ := List.append_of_mem hmem
    exact (h.precedes hacts).1
  · rintro rfl
    cases h
    exact ⟨_, List.mem_append_right _ List.mem_cons_self⟩

end TriesCommit

/-- An outcome is degraded just by the commit that failed. -/
theorem Routes.degraded_iff {outcome : Outcome} (h : Routes policy secret m acts (.ok outcome))
    (error : String) :
    outcome.degraded = some (.sessionCommitFailed error) ↔
      ∃ c e, .committed c (.error e) ∈ acts ∧ e.message = error := by
  obtain ⟨answer?, htries, hdegraded⟩ := h.triesCommit
  have hfailed : (∃ c e, .committed c (.error e) ∈ acts ∧ e.message = error) ↔
      ∃ e, answer? = some (.error e) ∧ e.message = error := by
    simp only [← htries.exists_mem_iff]
    constructor
    · rintro ⟨c, e, hmem, heq⟩
      exact ⟨e, ⟨c, hmem⟩, heq⟩
    · rintro ⟨e, ⟨c, hmem⟩, heq⟩
      exact ⟨c, e, hmem, heq⟩
  rw [hdegraded outcome rfl, hfailed]
  cases answer? with
  | none => simp
  | some answer => cases answer <;> simp [degradedFor]

/-! ## What is stored when the commit fails -/

/-- A bundle that could not be committed is stored itself, on the standard path and
    with the flag of the fault. -/
theorem Routes.insertion_of_failed (h : Routes policy secret m acts result) {sender : String}
    {x : PreKeyBundle} {e : KeyError} (hmem : .committed (.bundle sender x) (.error e) ∈ acts) :
    ∃ answer, acts.filterMap Act.insertion? =
        [((standardPlace policy secret).1, m.withFlag e.flag, answer)] ∧
      ∀ outcome, result = .ok outcome →
        outcome.kind = m.kind ∧ outcome.flags = m.flags.insert e.flag := by
  -- No other route enters a failed commit of a bundle.
  have hasked : ∀ {acts : List Act}, (∀ act ∈ acts, act.isQuestion) →
      .committed (.bundle sender x) (.error e) ∉ acts := fun h hmem => Bool.noConfusion (h _ hmem)
  have hquiet : ∀ {acts : List Act}, (∀ act ∈ acts, act.isSession = false) →
      .committed (.bundle sender x) (.error e) ∉ acts := fun h hmem => Bool.noConfusion (h _ hmem)
  cases h with
  | ciphertext _ hstored => exact absurd hmem (hquiet hstored.not_session)
  | setAside haside hstored =>
    exact absurd hmem (by simp [hasked haside.questions, hquiet hstored.not_session])
  | exchangeRefused htrust hstored | exchangeCommitted htrust hstored
  | exchangeUncommitted htrust hstored | bundleRefused htrust hstored
  | bundleAccepted htrust hstored =>
    exact absurd hmem (by simp [hasked htrust.judged.questions, hquiet hstored.not_session])
  | bundleUncommitted htrust hstored =>
    simp only [List.mem_append, hasked htrust.judged.questions, List.mem_cons,
      hquiet hstored.not_session, or_false, false_or, Act.committed.injEq,
      Except.error.injEq] at hmem
    obtain ⟨-, rfl⟩ := hmem
    have hinsertions := insertions_of_questions htrust.judged.questions
    cases hstored with
    | stored identity =>
      refine ⟨.ok identity, by simp [hinsertions, List.filterMap_cons, Act.insertion?], ?_⟩
      rintro outcome ⟨⟩
      exact ⟨rfl, rfl⟩
    | refused error =>
      refine ⟨.error error, by simp [hinsertions, List.filterMap_cons, Act.insertion?], ?_⟩
      rintro outcome ⟨⟩

/-! ## Trust before commit -/

/-- The account of the commits in one route: `acts` are the entries that it adds to
    the journal. -/
structure CommitsOnTrust (policy : Policy) (secret : Option MasterSecret) (m : Message)
    (acts : List Act) (result : Except StorageError Outcome) : Prop where
  /-- One commit is tried at most. -/
  once : acts.countP Act.isCommit ≤ 1
  /-- A key exchange is committed only if it is answered and can be read, after the
      store has called it new and its identity trusted, and after the message was
      inserted as processed into the thread that the commit names. -/
  exchange : ∀ {before after : List Act} {sender : String} {x : KeyExchange} {thread : ThreadId}
    {answer : Except KeyError Unit},
    acts = before ++ .committed (.exchange sender x thread) answer :: after →
      m.kind = .keyExchange ∧ policy.autoRespond = true ∧ secret.isSome ∧ sender = m.sender ∧
        KeyExchange.decode m.body = .ok x ∧
          .asked (.stale sender x.sequence) (.ok false) ∈ before ∧
          .asked (.trusted sender x.identityKey) (.ok true) ∈ before ∧
            ∃ placement message,
              .inserted placement (m.withFlag .processed) (.ok ⟨message, thread⟩) ∈ before
  /-- A bundle is committed only if it can be read, and after the store has said
      that its prekey is there, that it is new and that its identity is trusted. -/
  bundle : ∀ {before after : List Act} {sender : String} {x : PreKeyBundle}
    {answer : Except KeyError Unit},
    acts = before ++ .committed (.bundle sender x) answer :: after →
      m.kind = .preKeyBundle ∧ sender = m.sender ∧ PreKeyBundle.decode m.body = .ok x ∧
        .asked (.prekey x.prekey) (.ok true) ∈ before ∧
          .asked (.stale sender x.sequence) (.ok false) ∈ before ∧
            .asked (.trusted sender x.identityKey) (.ok true) ∈ before
  /-- The outcome is degraded just if the commit failed, by the wording of the
      fault. -/
  degraded_iff : ∀ {outcome : Outcome}, result = .ok outcome → ∀ error : String,
    outcome.degraded = some (.sessionCommitFailed error) ↔
      ∃ c e, .committed c (.error e) ∈ acts ∧ e.message = error
  /-- When the commit of a bundle fails, the bundle itself is stored, with the flag
      of the fault and of the kind it had. -/
  uncommitted : ∀ {sender : String} {x : PreKeyBundle} {e : KeyError},
    .committed (.bundle sender x) (.error e) ∈ acts →
      m.kind = .preKeyBundle ∧ ∃ answer,
        acts.filterMap Act.insertion? =
            [((standardPlace policy secret).1, m.withFlag e.flag, answer)] ∧
          ∀ outcome, result = .ok outcome →
            outcome.kind = .preKeyBundle ∧ outcome.flags = m.flags.insert e.flag

theorem Routes.commitsOnTrust (h : Routes policy secret m acts result) :
    CommitsOnTrust policy secret m acts result where
  once := by
    obtain ⟨_, htries, -⟩ := h.triesCommit
    exact htries.countP_le_one
  exchange hacts := by
    obtain ⟨_, htries, -⟩ := h.triesCommit
    obtain ⟨-, asked, stored, rfl, hprecedes⟩ := htries.precedes hacts
    cases hprecedes with
    | exchange htrust hstored =>
      obtain ⟨hstale, htrusted⟩ := htrust.judged.asked_of_trusted
      refine ⟨htrust.answered.kind, htrust.answered.autoRespond, htrust.answered.live, rfl,
        htrust.decoded, List.mem_append_left _ hstale, List.mem_append_left _ htrusted, ?_⟩
      cases hstored with
      | stored identity =>
        exact ⟨_, identity.message, List.mem_append_right _ List.mem_cons_self⟩
  bundle hacts := by
    obtain ⟨_, htries, -⟩ := h.triesCommit
    obtain ⟨-, asked, stored, rfl, hprecedes⟩ := htries.precedes hacts
    cases hprecedes with
    | bundle htrust =>
      rw [List.append_nil]
      exact ⟨htrust.kind, rfl, htrust.decoded, htrust.judged.asked_of_trusted⟩
  degraded_iff houtcome error := by
    subst houtcome
    exact h.degraded_iff error
  uncommitted hmem := by
    obtain ⟨_, htries, -⟩ := h.triesCommit
    obtain ⟨before, after, hacts⟩ := List.append_of_mem hmem
    obtain ⟨-, asked, stored, rfl, hprecedes⟩ := htries.precedes hacts
    cases hprecedes with
    | bundle htrust =>
      obtain ⟨answer, hinsertion, houtcome⟩ := h.insertion_of_failed hmem
      exact ⟨htrust.kind, answer, hinsertion, htrust.kind ▸ houtcome⟩

/-- Whatever the stores answer, a route commits key material only after it was
    judged trusted: the entries it adds to the journal are the calls it makes, and
    their commit is accounted for. -/
theorem Parties.route_commitsOnTrust (p : Parties μ σ) (policy : Policy)
    (secret : Option MasterSecret) (m : Message) (d : Desk μ σ) :
    p.Performs (CommitsOnTrust policy secret m) d (p.route policy secret m d) := by
  obtain ⟨acts, hacts, hroutes⟩ := p.route_performs policy secret m d
  exact ⟨acts, hacts, hroutes.commitsOnTrust⟩

end SecureInbox
