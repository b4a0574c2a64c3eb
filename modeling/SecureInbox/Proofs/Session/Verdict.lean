import SecureInbox.Proofs.Intake.Commitment
import SecureInbox.Proofs.Intake.Memory
import SecureInbox.Proofs.Intake.Whole

/-!
# Verdicts of a ledger

A ledger answers every question, so its verdict on key material (`Ledger.judge`) comes down
to its state: the epoch and the identity of the sender, and for a bundle the prekeys
(`Ledger.judge_eq_trusted`, `Ledger.judge_exchange_eq_stale`, `Ledger.judge_bundle_eq_gone`).

A message *presents* key material if that is looked at when the message is routed. Where the
verdict on it is anything but `trusted` and the message store works, the message is stored as
it came, with the flag of the verdict, and nothing else is done (`Delivers.storesRefused`).
-/

namespace SecureInbox

open Parties (standardPlace)

variable {μ : Type}

/-! ## Key material -/

namespace KeyMaterial

/-- The sequence of key material. -/
def sequence : KeyMaterial → UInt32
  | .exchange x => x.sequence
  | .bundle x => x.sequence

/-- The identity that key material claims. -/
def identity : KeyMaterial → IdentityKey
  | .exchange x => x.identityKey
  | .bundle x => x.identityKey

end KeyMaterial

namespace Ledger

variable {l : Ledger} {sender : String} {sequence : UInt32} {identity : IdentityKey}
  {k : KeyMaterial}

/-- The verdict on key material from a sender. -/
def judge (l : Ledger) (sender : String) : KeyMaterial → Verdict
  | .exchange x => (judgeExchange store.ask sender x l).1
  | .bundle x => (judgeBundle store.ask sender x l).1

theorem judgeClaim_eq (l : Ledger) (sender : String) (sequence : UInt32)
    (identity : IdentityKey) :
    (judgeClaim store.ask sender sequence identity l).1 =
      if l.answer (.stale sender sequence) then .stale
      else if l.answer (.trusted sender identity) then .trusted else .invalid .untrusted := by
  cases hstale : l.answer (.stale sender sequence) <;>
    cases htrusted : l.answer (.trusted sender identity) <;>
      simp [judgeClaim, judgeIdentity, store, hstale, htrusted]

theorem judgeBundle_eq (l : Ledger) (sender : String) (x : PreKeyBundle) :
    (judgeBundle store.ask sender x l).1 =
      if l.answer (.prekey x.prekey) then
        (judgeClaim store.ask sender x.sequence x.identityKey l).1
      else .invalid .stalePreKey := by
  cases hprekey : l.answer (.prekey x.prekey) <;> simp [judgeBundle, store, hprekey]

theorem judgeClaim_eq_trusted :
    (judgeClaim store.ask sender sequence identity l).1 = .trusted ↔
      (l.session sender).epoch ≤ sequence.toNat ∧
        ∀ known, (l.session sender).identity = some known → known = identity := by
  rw [judgeClaim_eq, ← answer_stale_eq_false, ← answer_trusted_eq_true]
  cases l.answer (.stale sender sequence) <;>
    cases l.answer (.trusted sender identity) <;> simp

theorem judgeClaim_eq_stale :
    (judgeClaim store.ask sender sequence identity l).1 = .stale ↔
      sequence.toNat < (l.session sender).epoch := by
  rw [judgeClaim_eq, ← Nat.not_le, ← answer_stale_eq_false]
  cases l.answer (.stale sender sequence) <;>
    cases l.answer (.trusted sender identity) <;> simp

theorem judgeClaim_eq_untrusted :
    (judgeClaim store.ask sender sequence identity l).1 = .invalid .untrusted ↔
      (l.session sender).epoch ≤ sequence.toNat ∧
        ∃ known, (l.session sender).identity = some known ∧ known ≠ identity := by
  have hother : (∃ known, (l.session sender).identity = some known ∧ known ≠ identity) ↔
      l.answer (.trusted sender identity) = false := by
    rw [← Bool.not_eq_true, answer_trusted_eq_true]
    simp
  rw [judgeClaim_eq, ← answer_stale_eq_false, hother]
  cases l.answer (.stale sender sequence) <;>
    cases l.answer (.trusted sender identity) <;> simp

theorem judge_exchange_eq_stale {x : KeyExchange} :
    l.judge sender (.exchange x) = .stale ↔ x.sequence.toNat < (l.session sender).epoch :=
  judgeClaim_eq_stale

/-- A missing prekey is found first, whatever else is wrong with the bundle. -/
theorem judge_bundle_eq_gone {x : PreKeyBundle} :
    l.judge sender (.bundle x) = .invalid .stalePreKey ↔ x.prekey ∉ l.prekeys := by
  rw [judge, judgeBundle_eq, judgeClaim_eq, ← answer_prekey_eq_true]
  cases l.answer (.prekey x.prekey) <;> cases l.answer (.stale sender x.sequence) <;>
    cases l.answer (.trusted sender x.identityKey) <;> simp

/-- The verdict is `trusted` just where the ledger trusts the commit. -/
theorem judge_eq_trusted (thread : ThreadId) :
    l.judge sender k = .trusted ↔ l.Trusts (k.commit sender thread) := by
  cases k with
  | exchange x =>
    rw [judge, judgeExchange, judgeClaim_eq_trusted]
    constructor
    · rintro ⟨hfresh, hknown⟩
      exact ⟨hfresh, hknown, fun _ _ h => by cases h⟩
    · exact fun h => ⟨h.fresh, h.known⟩
  | bundle x =>
    rw [judge, judgeBundle_eq, ite_eq_iff, judgeClaim_eq_trusted, answer_prekey_eq_true]
    constructor
    · rintro (⟨hprekey, hfresh, hknown⟩ | ⟨-, h⟩)
      · exact ⟨hfresh, hknown, fun _ _ h => by cases h; exact hprekey⟩
      · cases h
    · exact fun h => .inl ⟨h.prekey sender x rfl, h.fresh, h.known⟩

end Ledger

/-! ## Verdicts in the journal -/

section

variable {p : Parties μ Ledger} {d d' : Desk μ Ledger} {sender : String} {asked : List Act}
  {verdict : Verdict}

/-- The verdict that the answers lead to is the ledger's. -/
theorem JudgesClaim.verdict_eq {sequence : UInt32} {identity : IdentityKey}
    (hp : p.sessions = Ledger.store) (h : JudgesClaim sender sequence identity asked verdict)
    (hasked : p.DoesAll d asked d') :
    verdict = (judgeClaim Ledger.store.ask sender sequence identity d.sessions).1 := by
  have hanswer : ∀ {question answer}, .asked question answer ∈ asked →
      .ok (d.sessions.answer question) = answer :=
    fun hmem => (hasked.answer_eq hp h.questions hmem).symm
  rw [Ledger.judgeClaim_eq]
  -- Each case fixes the answers that came. A fault is none that a ledger gives.
  cases h with
  | staleFails e => exact nomatch hanswer List.mem_cons_self
  | stale => rw [if_pos (Except.ok.inj (hanswer List.mem_cons_self))]
  | trustFails e => exact nomatch hanswer (List.mem_cons_of_mem _ List.mem_cons_self)
  | untrusted | trusted =>
    have hstale := Except.ok.inj (hanswer List.mem_cons_self)
    have htrusted := Except.ok.inj (hanswer (List.mem_cons_of_mem _ List.mem_cons_self))
    simp [hstale, htrusted]

theorem JudgesBundle.verdict_eq {x : PreKeyBundle} (hp : p.sessions = Ledger.store)
    (h : JudgesBundle sender x asked verdict) (hasked : p.DoesAll d asked d') :
    verdict = (judgeBundle Ledger.store.ask sender x d.sessions).1 := by
  have hanswer : ∀ {question answer}, .asked question answer ∈ asked →
      .ok (d.sessions.answer question) = answer :=
    fun hmem => (hasked.answer_eq hp h.questions hmem).symm
  rw [Ledger.judgeBundle_eq]
  cases h with
  | prekeyFails e => exact nomatch hanswer List.mem_cons_self
  | prekeyGone =>
    have hprekey := Except.ok.inj (hanswer List.mem_cons_self)
    simp [hprekey]
  | claim hclaim =>
    rw [if_pos (Except.ok.inj (hanswer List.mem_cons_self))]
    cases hasked with
    | cons hfirst hrest =>
      -- the first question leaves the ledger as it is
      have hledger := (Parties.DoesAll.single hfirst).ledger_eq hp (by simp [Act.isCommit])
      rw [hclaim.verdict_eq hp hrest, hledger]

end

/-! ## Key material that is presented -/

/-- The message brings key material that is looked at: a bundle always, a key exchange only
    if it is answered. -/
inductive Message.Presents (policy : Policy) (secret : Option MasterSecret) (m : Message) :
    KeyMaterial → Prop
  | exchange {x : KeyExchange} : IsAnswered policy secret m → KeyExchange.decode m.body = .ok x →
      Presents policy secret m (.exchange x)
  | bundle {x : PreKeyBundle} : m.kind = .preKeyBundle → PreKeyBundle.decode m.body = .ok x →
      Presents policy secret m (.bundle x)

section

variable {policy : Policy} {secret : Option MasterSecret} {m : Message} {k : KeyMaterial}
  {asked acts : List Act}

namespace Message.Presents

theorem kind_ne (h : m.Presents policy secret k) : m.kind ≠ .secureCiphertext := by
  cases h with
  | exchange hanswered => exact hanswered.kind ▸ Kind.noConfusion
  | bundle hkind => exact hkind ▸ Kind.noConfusion

/-- A fresh message that presents key material has no flag. -/
theorem flags_eq_empty (h : m.Presents policy secret k) (hfresh : m.IsFresh) :
    m.flags = .empty := by
  cases h with
  | exchange _ hx => exact hfresh.flags_of_exchange hx
  | bundle _ hx => exact hfresh.flags_of_bundle hx

/-- A message lets nothing be committed but what it presents. -/
theorem not_trusts {l : Ledger} (h : m.Presents policy secret k)
    (hrefused : l.judge m.sender k ≠ .trusted) :
    ∀ c asked, Earns policy secret m c asked → ¬l.Trusts c := by
  intro c asked hearns htrusts
  -- What is earned is decoded from the same body, so it is what was presented.
  cases h with
  | exchange hanswered hx =>
    cases hearns with
    | exchange thread hearns =>
      cases hx.symm.trans hearns.decoded
      exact hrefused ((Ledger.judge_eq_trusted thread).2 htrusts)
    | bundle hearns => exact nomatch hanswered.kind.symm.trans hearns.kind
  | bundle hkind hx =>
    cases hearns with
    | exchange _ hearns => exact nomatch hkind.symm.trans hearns.answered.kind
    | bundle hearns =>
      cases hx.symm.trans hearns.decoded
      exact hrefused ((Ledger.judge_eq_trusted ⟨0⟩).2 htrusts)

end Message.Presents

/-- What a message presents is not trusted where the message is set aside, and the flag is
    that of the verdict. -/
theorem SetsAside.judge_ne {p : Parties μ Ledger} {d d' : Desk μ Ledger} {flag : Option Flag}
    (hp : p.sessions = Ledger.store) (h : SetsAside policy secret m asked flag)
    (hasked : p.DoesAll d asked d') (hk : m.Presents policy secret k) :
    d.sessions.judge m.sender k ≠ .trusted ∧ flag = (d.sessions.judge m.sender k).flag := by
  -- The key material can be read and is looked at, so it was set aside for the verdict.
  cases hk with
  | exchange hanswered hx =>
    cases h with
    | plain h | unreadableBundle h | refusedBundle h => exact nomatch hanswered.kind.symm.trans h
    | unanswered _ h => exact absurd hanswered h
    | unreadableExchange _ h => exact nomatch hx.symm.trans h
    | refusedExchange _ h hjudged hne =>
      cases hx.symm.trans h
      have hverdict := hjudged.verdict_eq hp hasked
      exact ⟨fun htrusted => hne (hverdict.trans htrusted), congrArg Verdict.flag hverdict⟩
  | bundle hkind hx =>
    cases h with
    | plain h | unanswered h => exact nomatch hkind.symm.trans h
    | unreadableExchange h | refusedExchange h => exact nomatch hkind.symm.trans h.kind
    | unreadableBundle _ h => exact nomatch hx.symm.trans h
    | refusedBundle _ h hjudged hne =>
      cases hx.symm.trans h
      have hverdict := hjudged.verdict_eq hp hasked
      exact ⟨fun htrusted => hne (hverdict.trans htrusted), congrArg Verdict.flag hverdict⟩

/-! ## Key material that is refused -/

/-- The store takes in every message. -/
def MessageStore.Works (store : MessageStore μ) : Prop :=
  ∀ placement m box, ∃ identity, (store.insert placement m box).1 = .ok identity

theorem Parties.DoesAll.inserted_ok {σ : Type} {p : Parties μ σ} {d d' : Desk μ σ}
    (hworks : p.messages.Works) (h : p.DoesAll d acts d') {placement : Placement}
    {answer : Except StorageError StoredIdentity} (hmem : .inserted placement m answer ∈ acts) :
    ∃ identity, answer = .ok identity := by
  induction h with
  | nil => exact nomatch hmem
  | @cons d d₁ d₂ act acts hact _ ih =>
    rcases List.mem_cons.1 hmem with rfl | hmem
    · cases hact with
      | inserted h =>
        obtain ⟨identity, hidentity⟩ := hworks placement m d.messages
        exact ⟨identity, (Prod.mk.inj h).1.symm.trans hidentity⟩
    · exact ih hmem

/-- The message is stored once, on the standard path and as it came but for the flag; no job
    is scheduled, no update of a session is told, and nothing is committed. -/
structure StoresRefused (policy : Policy) (secret : Option MasterSecret) (m : Message)
    (flag : Option Flag) (acts : List Act) (result : Except IngestError Ingested) : Prop where
  stored : ∃ identity,
    acts.filterMap Act.insertion? =
        [((standardPlace policy secret).1, m.withFlag? flag, .ok identity)] ∧
      result = .ok (.stored
        (.ofMessage identity (m.withFlag? flag) (standardPlace policy secret).2))
  untold : ∀ thread, .notified (.securityUpdated thread) ∉ acts
  unscheduled : acts.filterMap Act.job? = []
  uncommitted : ∀ act ∈ acts, act.isCommit = false

/-- Key material that the ledger does not trust is refused, if the message store works. -/
theorem Delivers.storesRefused {p : Parties μ Ledger} {d d' : Desk μ Ledger}
    {result : Except IngestError Ingested} (hp : p.sessions = Ledger.store)
    (hworks : p.messages.Works) (h : Delivers policy secret m acts result)
    (hacts : p.DoesAll d acts d') (hk : m.Presents policy secret k)
    (hrefused : d.sessions.judge m.sender k ≠ .trusted) :
    StoresRefused policy secret m (d.sessions.judge m.sender k).flag acts result := by
  have huntrusted := hk.not_trusts hrefused
  cases h with
  | stored hroutes =>
    obtain ⟨d₁, hrouted, -⟩ := hacts.of_append
    obtain ⟨asked, flag, acts, haside, hstored, rfl⟩ :=
      hroutes.setsAside hp hrouted hk.kind_ne huntrusted
    obtain ⟨d₂, hasked, -⟩ := hrouted.of_append
    obtain ⟨-, rfl⟩ := haside.judge_ne hp hasked hk
    have hquestions := haside.questions
    cases hstored with
    | stored identity =>
      constructor
      case stored =>
        refine ⟨identity, ?_, rfl⟩
        simp [insertions_of_questions hquestions, Act.insertion?, List.filterMap_cons]
      case untold =>
        intro thread hmem
        have hasked : .notified (.securityUpdated thread) ∉ asked := fun hmem =>
          Bool.noConfusion (hquestions _ hmem)
        simp [hasked] at hmem
      case unscheduled => simp [jobs_of_questions hquestions, Act.job?, List.filterMap_cons]
      case uncommitted =>
        have hasked : ∀ act ∈ asked, act.isCommit = false := not_commit_of_questions hquestions
        simpa [Act.isCommit, or_imp, forall_and] using hasked
  | refused hroutes =>
    obtain ⟨asked, flag, acts, -, hstored, rfl⟩ :=
      hroutes.setsAside hp hacts hk.kind_ne huntrusted
    cases hstored with
    | refused error =>
      obtain ⟨_, hok⟩ := hacts.inserted_ok hworks (List.mem_append_right _ List.mem_cons_self)
      cases hok

end

end SecureInbox
