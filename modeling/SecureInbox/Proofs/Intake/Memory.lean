import SecureInbox.Proofs.Intake.Event
import SecureInbox.Proofs.Mailbox.Memory
import SecureInbox.Proofs.Session.Ledger

/-!
# Receiving in memory

Over a mailbox and a ledger no call fails, so what is done with a message is settled
by its kind and the ledger before anything is done: there is a *plan* for it
(`Ledger.plan`), and routing carries the plan out (`Parties.route_fulfills`,
`Intake.deliver_eq`). Only the identity that the mailbox gives the message is left open
by the plan.

The plan depends on the ledger no more than its questions do
(`Ledger.plan_congr`).
-/

namespace SecureInbox

open Parties (standardPlace jobFor)

/-! ## Reading the journal of a desk -/

/-- The desk with more entries in its journal. -/
def Desk.noteAll {μ σ : Type} (d : Desk μ σ) (acts : List Act) : Desk μ σ :=
  { d with journal := d.journal ++ acts }

/-! ## Plans -/

/-- Key material that a message brings. -/
inductive KeyMaterial
  | exchange (x : KeyExchange)
  | bundle (x : PreKeyBundle)
  deriving DecidableEq

/-- The commit of a sender's key material, once the thread is known. -/
def KeyMaterial.commit (sender : String) (thread : ThreadId) : KeyMaterial → Commit
  | .exchange x => .exchange sender x thread
  | .bundle x => .bundle sender x

/-- What is going to be done with a message. -/
structure Plan where
  placement : Placement
  path : StoragePath
  /-- The message as it is stored. -/
  message : Message
  /-- The secret that it is to be decrypted with. -/
  secret? : Option MasterSecret := none
  /-- The key material that is committed. -/
  material? : Option KeyMaterial := none
  deriving DecidableEq

namespace Plan

/-- To store a message on the secure path. -/
def secure (secret : Option MasterSecret) (m : Message) : Plan where
  placement := .encrypted secret
  path := .secure
  message := m
  secret? := secret

/-- To store a message on the standard path. -/
def standard (policy : Policy) (secret : Option MasterSecret) (m : Message) : Plan where
  placement := (standardPlace policy secret).1
  path := (standardPlace policy secret).2
  message := m

variable (plan : Plan) (identity : StoredIdentity)

/-- The report on a plan that was carried out. -/
def outcome : Outcome := .ofMessage identity plan.message plan.path

@[simp]
theorem identity_outcome : (plan.outcome identity).identity = identity := rfl

/-- The decryption that is scheduled. -/
def job? : Option DecryptionJob := plan.secret?.map (jobFor · identity plan.message)

/-- The commit, in the thread of the message. -/
def commit? : Option Commit :=
  plan.material?.map (·.commit plan.message.sender identity.thread)

/-- The notification that the session was updated, which follows a bundle. -/
def update? : Option Notice :=
  match plan.material? with
  | some (.bundle _) => some (.securityUpdated identity.thread)
  | _ => none

end Plan

namespace Ledger

variable (l : Ledger) (policy : Policy) (secret : Option MasterSecret) (m : Message)

/-- The plan for a prekey bundle. -/
def planBundle : Plan :=
  match PreKeyBundle.decode m.body with
  | .error e => .standard policy secret (m.withFlag e.flag)
  | .ok x =>
    match (judgeBundle store.ask m.sender x l).1 with
    | .trusted => { Plan.secure secret (m.inner x) with material? := some (.bundle x) }
    | verdict => .standard policy secret (m.withFlag? verdict.flag)

/-- The plan for a key exchange. -/
def planExchange : Plan :=
  match secret, policy.autoRespond with
  | some _, true =>
    match KeyExchange.decode m.body with
    | .error e => .standard policy secret (m.withFlag e.flag)
    | .ok x =>
      match (judgeExchange store.ask m.sender x l).1 with
      | .trusted =>
        { Plan.standard policy secret (m.withFlag .processed) with material? := some (.exchange x) }
      | verdict => .standard policy secret (m.withFlag? verdict.flag)
  | _, _ => .standard policy secret m

/-- The plan for a message. -/
def plan : Plan :=
  match m.kind with
  | .secureCiphertext => .secure secret m
  | .preKeyBundle => l.planBundle policy secret m
  | .keyExchange => l.planExchange policy secret m
  | .plain => .standard policy secret m

end Ledger

/-! ## Carrying a plan out -/

/-- The stores in memory. -/
def Parties.inMemory : Parties Mailbox Ledger where
  messages := Mailbox.store
  sessions := Ledger.store

/-- The receiver over the stores in memory. -/
def Intake.inMemory (limits : Limits) (policy : Policy) : Intake Mailbox Ledger where
  parties := .inMemory
  limits := limits
  policy := policy

/-- The plan was carried out for a message that the mailbox gave this identity. -/
structure Desk.CarriesOut (plan : Plan) (identity : StoredIdentity) (acts : List Act)
    (d d' : Desk Mailbox Ledger) : Prop where
  messages : d.messages.insert plan.placement plan.message = (identity, d'.messages)
  sessions : d'.sessions = ((plan.commit? identity).map d.sessions.after).getD d.sessions
  journal : d'.journal = d.journal ++ acts
  jobs : acts.filterMap Act.job? = (plan.job? identity).toList
  notices : acts.filterMap Act.notice? = (plan.update? identity).toList
  commits : acts.filterMap Act.commit? = (plan.commit? identity).toList

namespace Parties

variable (policy : Policy) (secret : Option MasterSecret) (m : Message) (d : Desk Mailbox Ledger)

/-! ### Verdicts -/

theorem judgeClaim_inMemory (sender : String) (sequence : UInt32) (identity : IdentityKey) :
    ∃ asked, (∀ act ∈ asked, act.isQuestion = true) ∧
      judgeClaim inMemory.ask sender sequence identity d =
        ((judgeClaim Ledger.store.ask sender sequence identity d.sessions).1, d.noteAll asked) := by
  cases hstale : d.sessions.answer (.stale sender sequence) with
  | true =>
    refine ⟨[.asked (.stale sender sequence) (.ok true)], by simp [Act.isQuestion], ?_⟩
    simp [judgeClaim, ask, inMemory, Ledger.store, hstale, Desk.note, Desk.noteAll]
  | false =>
    refine ⟨[.asked (.stale sender sequence) (.ok false), .asked (.trusted sender identity)
      (.ok (d.sessions.answer (.trusted sender identity)))], by simp [Act.isQuestion], ?_⟩
    cases htrusted : d.sessions.answer (.trusted sender identity) <;>
      simp [judgeClaim, judgeIdentity, ask, inMemory, Ledger.store, hstale, htrusted, Desk.note,
        Desk.noteAll]

theorem judgeBundle_inMemory (sender : String) (x : PreKeyBundle) :
    ∃ asked, (∀ act ∈ asked, act.isQuestion = true) ∧
      judgeBundle inMemory.ask sender x d =
        ((judgeBundle Ledger.store.ask sender x d.sessions).1, d.noteAll asked) := by
  cases hprekey : d.sessions.answer (.prekey x.prekey) with
  | false =>
    refine ⟨[.asked (.prekey x.prekey) (.ok false)], by simp [Act.isQuestion], ?_⟩
    simp [judgeBundle, ask, inMemory, Ledger.store, hprekey, Desk.note, Desk.noteAll]
  | true =>
    obtain ⟨asked, hasked, hclaim⟩ := judgeClaim_inMemory
      (d.note (.asked (.prekey x.prekey) (.ok true))) sender x.sequence x.identityKey
    refine ⟨.asked (.prekey x.prekey) (.ok true) :: asked, by simpa [Act.isQuestion] using hasked, ?_⟩
    have hask : inMemory.ask (.prekey x.prekey) d =
        (.ok true, d.note (.asked (.prekey x.prekey) (.ok true))) := by
      simp [ask, inMemory, Ledger.store, hprekey]
    simp only [judgeBundle, hask, hclaim]
    simp [Ledger.store, hprekey, Desk.note, Desk.noteAll]

/-! ### Paths into the store -/

/-- The routing came to a plan that was carried out, with a report on that. -/
def Fulfills (plan : Plan) (d : Desk Mailbox Ledger) (routed : Routed Mailbox Ledger) : Prop :=
  ∃ identity acts d', routed = (.ok (plan.outcome identity), d') ∧
    d.CarriesOut plan identity acts d'

variable {asked : List Act}

theorem storeStandard_fulfills (hasked : ∀ act ∈ asked, act.isQuestion = true) :
    Fulfills (.standard policy secret m) d
      (inMemory.storeStandard policy secret m (d.noteAll asked)) :=
  ⟨d.messages.nextIdentity m.sender, asked ++ [.inserted (standardPlace policy secret).1 m
    (.ok (d.messages.nextIdentity m.sender))], _, rfl,
    { messages := rfl
      sessions := rfl
      journal := by rw [← List.append_assoc]; rfl
      jobs := by simp [jobs_of_questions hasked, Act.job?, Plan.job?, Plan.standard]
      notices := by simp [notices_of_questions hasked, Act.notice?, Plan.update?, Plan.standard]
      commits := by simp [commits_of_questions hasked, Act.commit?, Plan.commit?, Plan.standard] }⟩

theorem storeSecure_fulfills :
    Fulfills (.secure secret m) d (inMemory.storeSecure secret m d) := by
  refine ⟨d.messages.nextIdentity m.sender, .inserted (.encrypted secret) m
    (.ok (d.messages.nextIdentity m.sender)) ::
      jobEntries secret (d.messages.nextIdentity m.sender) m, _, rfl, ?_⟩
  cases secret with
  | none => exact ⟨rfl, rfl, rfl, rfl, rfl, rfl⟩
  | some s => exact ⟨rfl, rfl, List.append_assoc d.journal [_] [_], rfl, rfl, rfl⟩

variable {policy secret m d}

theorem acceptBundle_fulfills (hasked : ∀ act ∈ asked, act.isQuestion = true) {x : PreKeyBundle}
    (hprekey : x.prekey ∈ d.sessions.prekeys) :
    Fulfills { Plan.secure secret (m.inner x) with material? := some (.bundle x) } d
      (inMemory.acceptBundle policy secret m x (d.noteAll asked)) := by
  let d₁ : Desk Mailbox Ledger :=
    { d with sessions := d.sessions.after (.bundle m.sender x) }.noteAll
      (asked ++ [Act.committed (.bundle m.sender x) (.ok ())])
  have hcommit : inMemory.commit (.bundle m.sender x) (d.noteAll asked) = (.ok (), d₁) := by
    have hprekey := List.contains_iff_mem.2 hprekey
    simp only [commit, inMemory, Ledger.store, Desk.noteAll, Ledger.after, Ledger.commit,
      if_pos hprekey, Desk.note, List.append_assoc, d₁]
  obtain ⟨identity, acts, d₂, hstored, hcarries⟩ := storeSecure_fulfills secret (m.inner x) d₁
  simp only [acceptBundle, hcommit, storeInner_eq, hstored]
  refine ⟨identity, asked ++ .committed (.bundle m.sender x) (.ok ()) :: acts ++
    [.notified (.securityUpdated identity.thread)], _, rfl, ?_⟩
  constructor
  case messages => exact hcarries.messages
  case sessions => exact hcarries.sessions
  case journal => simp [Desk.note, hcarries.journal, Desk.noteAll, d₁]
  case jobs =>
    simpa [jobs_of_questions hasked, List.filterMap_cons, Act.job?, Plan.job?] using hcarries.jobs
  case notices =>
    have hnotices : acts.filterMap Act.notice? = [] := hcarries.notices
    simp [notices_of_questions hasked, List.filterMap_cons, Act.notice?, Plan.update?, hnotices]
  case commits =>
    have hcommits : acts.filterMap Act.commit? = [] := hcarries.commits
    simp [commits_of_questions hasked, List.filterMap_cons, Act.commit?, hcommits]
    rfl

theorem acceptExchange_fulfills (hasked : ∀ act ∈ asked, act.isQuestion = true)
    (live : MasterSecret) (x : KeyExchange) :
    Fulfills { Plan.standard policy (some live) (m.withFlag .processed) with
      material? := some (.exchange x) } d
      (inMemory.acceptExchange policy live m x (d.noteAll asked)) := by
  obtain ⟨identity, acts, d₁, hstored, hcarries⟩ :=
    storeStandard_fulfills policy (some live) (m.withFlag .processed) d hasked
  let d₂ : Desk Mailbox Ledger :=
    { d₁ with sessions := d₁.sessions.after (.exchange m.sender x identity.thread) }.note
      (.committed (.exchange m.sender x identity.thread) (.ok ()))
  have hcommit : inMemory.commit (.exchange m.sender x identity.thread) d₁ = (.ok (), d₂) := rfl
  simp only [acceptExchange, hstored, Plan.identity_outcome, hcommit]
  refine ⟨identity, acts ++ [.committed (.exchange m.sender x identity.thread) (.ok ())], d₂, rfl, ?_⟩
  have hsessions : d₁.sessions = d.sessions := hcarries.sessions
  constructor
  case messages => exact hcarries.messages
  case sessions => exact congrArg (Ledger.after · _) hsessions
  case journal => simp [d₂, Desk.note, hcarries.journal]
  case jobs =>
    have hjobs : acts.filterMap Act.job? = [] := hcarries.jobs
    rw [List.filterMap_append, hjobs]
    rfl
  case notices =>
    have hnotices : acts.filterMap Act.notice? = [] := hcarries.notices
    rw [List.filterMap_append, hnotices]
    rfl
  case commits =>
    have hcommits : acts.filterMap Act.commit? = [] := hcarries.commits
    rw [List.filterMap_append, hcommits]
    rfl

/-! ### Routes -/

theorem prekey_of_judgeBundle {l : Ledger} {sender : String} {x : PreKeyBundle}
    (h : (judgeBundle Ledger.store.ask sender x l).1 = .trusted) : x.prekey ∈ l.prekeys := by
  cases hprekey : l.answer (.prekey x.prekey) with
  | true => exact Ledger.answer_prekey_eq_true.1 hprekey
  | false => simp [judgeBundle, Ledger.store, hprekey] at h

variable (policy secret m d)

/-- Where nothing was asked, the standard path starts at the desk itself. -/
theorem storeStandard_fulfills_self :
    Fulfills (.standard policy secret m) d (inMemory.storeStandard policy secret m d) := by
  have hasked : ∀ act ∈ ([] : List Act), act.isQuestion = true := List.forall_mem_nil _
  have h := storeStandard_fulfills policy secret m d hasked
  rwa [Desk.noteAll, List.append_nil] at h

theorem routeBundle_fulfills :
    Fulfills (d.sessions.planBundle policy secret m) d
      (inMemory.routeBundle policy secret m d) := by
  cases hx : PreKeyBundle.decode m.body with
  | error e =>
    simp only [Ledger.planBundle, routeBundle, hx]
    exact storeStandard_fulfills_self policy secret _ d
  | ok x =>
    obtain ⟨asked, hasked, hjudged⟩ := judgeBundle_inMemory d m.sender x
    cases hverdict : (judgeBundle Ledger.store.ask m.sender x d.sessions).1 with
    | trusted =>
      simp only [Ledger.planBundle, routeBundle, hx, hjudged, hverdict]
      exact acceptBundle_fulfills hasked (prekey_of_judgeBundle hverdict)
    | stale | invalid =>
      simp only [Ledger.planBundle, routeBundle, hx, hjudged, hverdict]
      exact storeStandard_fulfills policy secret _ d hasked

theorem answerExchange_fulfills (live : MasterSecret) (hauto : policy.autoRespond = true) :
    Fulfills (d.sessions.planExchange policy (some live) m) d
      (inMemory.answerExchange policy live m d) := by
  cases hx : KeyExchange.decode m.body with
  | error e =>
    simp only [Ledger.planExchange, hauto, answerExchange, hx]
    exact storeStandard_fulfills_self policy (some live) _ d
  | ok x =>
    obtain ⟨asked, hasked, hjudged⟩ :=
      judgeClaim_inMemory d m.sender x.sequence x.identityKey
    rw [← judgeExchange, ← judgeExchange] at hjudged
    cases hverdict : (judgeExchange Ledger.store.ask m.sender x d.sessions).1 with
    | trusted =>
      simp only [Ledger.planExchange, hauto, answerExchange, hx, hjudged, hverdict]
      exact acceptExchange_fulfills hasked live x
    | stale | invalid =>
      simp only [Ledger.planExchange, hauto, answerExchange, hx, hjudged, hverdict]
      exact storeStandard_fulfills policy (some live) _ d hasked

theorem routeExchange_fulfills :
    Fulfills (d.sessions.planExchange policy secret m) d
      (inMemory.routeExchange policy secret m d) := by
  cases secret with
  | none => exact storeStandard_fulfills_self policy none m d
  | some live =>
    cases hauto : policy.autoRespond with
    | true =>
      simp only [routeExchange, hauto]
      exact answerExchange_fulfills policy m d live hauto
    | false =>
      simp only [Ledger.planExchange, routeExchange, hauto]
      exact storeStandard_fulfills_self policy (some live) m d

/-- Routing carries the plan out. -/
theorem route_fulfills :
    Fulfills (d.sessions.plan policy secret m) d (inMemory.route policy secret m d) := by
  cases hkind : m.kind with
  | plain =>
    simp only [Ledger.plan, route, hkind]
    exact storeStandard_fulfills_self policy secret m d
  | secureCiphertext =>
    simp only [Ledger.plan, route, hkind]
    exact storeSecure_fulfills secret m d
  | keyExchange =>
    simp only [Ledger.plan, route, hkind]
    exact routeExchange_fulfills policy secret m d
  | preKeyBundle =>
    simp only [Ledger.plan, route, hkind]
    exact routeBundle_fulfills policy secret m d

end Parties

/-- A message that got whole is stored by its plan, and its thread is told. -/
theorem Intake.deliver_eq (limits : Limits) (policy : Policy) (secret : Option MasterSecret)
    (m : Message) (d : Desk Mailbox Ledger) :
    ∃ identity acts d', d.CarriesOut (d.sessions.plan policy secret m) identity acts d' ∧
      (inMemory limits policy).deliver secret m d =
        (.ok (.stored ((d.sessions.plan policy secret m).outcome identity)),
          d'.note (.notified (.messageReceived identity.thread secret.isSome))) := by
  obtain ⟨identity, acts, d', hrouted, hcarries⟩ := Parties.route_fulfills policy secret m d
  exact ⟨identity, acts, d', hcarries, by
    simp only [deliver, inMemory, hrouted, Plan.identity_outcome]⟩

/-! ## What plans depend on -/

namespace Ledger

variable {l l' : Ledger} {m : Message} {policy : Policy} {secret : Option MasterSecret}

theorem sender_plan : (l.plan policy secret m).message.sender = m.sender := by
  have hflag : ∀ flag, (m.withFlag? flag).sender = m.sender := by rintro (_ | _) <;> rfl
  unfold plan
  split
  · rfl
  · unfold planBundle
    split
    · rfl
    · split
      · rfl
      · exact hflag _
  · unfold planExchange
    split
    · split
      · rfl
      · split
        · rfl
        · exact hflag _
    · rfl
  · rfl

/-- A plan commits a bundle only while its prekey is there. -/
theorem prekey_of_material? {x : PreKeyBundle}
    (h : (l.plan policy secret m).material? = some (.bundle x)) : x.prekey ∈ l.prekeys := by
  unfold plan at h
  split at h
  · exact nomatch h
  · unfold planBundle at h
    split at h
    · exact nomatch h
    · split at h
      · rename_i hverdict
        cases h
        exact Parties.prekey_of_judgeBundle hverdict
      · exact nomatch h
  · unfold planExchange at h
    split at h
    · split at h
      · exact nomatch h
      · split at h <;> exact nomatch h
    · exact nomatch h
  · exact nomatch h

/-- What a plan commits can be committed. -/
theorem commit_ok_of_plan {c : Commit} {identity : StoredIdentity}
    (h : (l.plan policy secret m).commit? identity = some c) : (commit c l).1 = .ok () := by
  obtain ⟨k, hk, rfl⟩ := Option.map_eq_some_iff.1 h
  cases k with
  | exchange => rfl
  | bundle x =>
    rw [KeyMaterial.commit, commit, if_pos (List.contains_iff_mem.2 (prekey_of_material? hk))]

theorem judgeClaim_congr {sender : String}
    (hepoch : (l.session sender).epoch = (l'.session sender).epoch)
    (hidentity : (l.session sender).identity = (l'.session sender).identity)
    (sequence : UInt32) (identity : IdentityKey) :
    (judgeClaim store.ask sender sequence identity l).1 =
      (judgeClaim store.ask sender sequence identity l').1 := by
  have hstale : l.answer (.stale sender sequence) = l'.answer (.stale sender sequence) := by
    simp only [answer, hepoch]
  have htrusted : l.answer (.trusted sender identity) = l'.answer (.trusted sender identity) := by
    simp only [answer, hidentity]
  simp only [judgeClaim, store, hstale]
  cases l'.answer (.stale sender sequence) with
  | true => rfl
  | false =>
    simp only [judgeIdentity, htrusted]
    cases l'.answer (.trusted sender identity) <;> rfl

/-- A message has the same plan over ledgers that know the same of its sender and of
    the prekey it names. -/
theorem plan_congr (hepoch : (l.session m.sender).epoch = (l'.session m.sender).epoch)
    (hidentity : (l.session m.sender).identity = (l'.session m.sender).identity)
    (hprekey : ∀ x, m.kind = .preKeyBundle → PreKeyBundle.decode m.body = .ok x →
      (x.prekey ∈ l.prekeys ↔ x.prekey ∈ l'.prekeys)) :
    l.plan policy secret m = l'.plan policy secret m := by
  have hclaim := judgeClaim_congr hepoch hidentity
  cases hkind : m.kind with
  | plain | secureCiphertext => simp only [plan, hkind]
  | keyExchange => simp only [plan, hkind, planExchange, judgeExchange, hclaim]
  | preKeyBundle =>
    simp only [plan, hkind, planBundle]
    cases hx : PreKeyBundle.decode m.body with
    | error e => rfl
    | ok x =>
      have hanswer : l.answer (.prekey x.prekey) = l'.answer (.prekey x.prekey) := by
        rw [Bool.eq_iff_iff, answer_prekey_eq_true, answer_prekey_eq_true]
        exact hprekey x hkind hx
      have hbundle : (judgeBundle store.ask m.sender x l).1 =
          (judgeBundle store.ask m.sender x l').1 := by
        simp only [judgeBundle, store, hanswer]
        cases l'.answer (.prekey x.prekey) with
        | false => rfl
        | true => exact hclaim x.sequence x.identityKey
      simp only [hbundle]

end Ledger

end SecureInbox
