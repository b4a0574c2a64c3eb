import SecureInbox.Proofs.Intake.Commitment
import SecureInbox.Session.Faulty
import SecureInbox.Session.Ledger

/-!
# The ledger behind the journal

A ledger answers truthfully and is changed by commits only, so what the journal
shows of it can be read off the ledger as it was before.

* `Ledger.after_eq_self`, `Ledger.session_after`: a commit that fails changes
  nothing, and one that succeeds settles the session of its sender;
* `Parties.DoesAll.answer_eq`: the answers entered are true of the ledger;
* `Earns.trusts`: what a message lets be committed is trusted by the ledger.
-/

namespace SecureInbox

open SessionStore (committer)

variable {μ : Type}

/-- The key material that a desk has committed. -/
def Desk.commits {μ σ : Type} (d : Desk μ σ) : List Commit := d.journal.filterMap Act.commit?

/-- The sequence of key material. -/
def Commit.sequence : Commit → UInt32
  | .exchange _ x _ => x.sequence
  | .bundle _ x => x.sequence

/-- The identity that key material claims. -/
def Commit.identity : Commit → IdentityKey
  | .exchange _ x _ => x.identityKey
  | .bundle _ x => x.identityKey

/-- The session of a sender after key material of theirs was committed. -/
def Commit.settle (s : Session) : Commit → Session
  | .exchange _ x thread =>
    { s.advance x.sequence x.identityKey with thread := some thread }
  | .bundle _ x => s.advance x.sequence x.identityKey

theorem Commit.epoch_settle (s : Session) (c : Commit) :
    (c.settle s).epoch = max s.epoch c.sequence.toNat + 1 := by
  cases c <;> rfl

namespace Ledger

/-- The ledger after a commit was tried. -/
abbrev after (l : Ledger) (c : Commit) : Ledger := (commit c l).2

/-- A commit that fails changes nothing. -/
theorem after_eq_self {c : Commit} {l : Ledger} {e : KeyError} (h : (commit c l).1 = .error e) :
    l.after c = l := by
  cases c with
  | exchange => exact nomatch h
  | bundle sender x =>
    by_cases hprekey : l.prekeys.contains x.prekey
    · rw [commit, if_pos hprekey] at h
      exact nomatch h
    · rw [after, commit, if_neg hprekey]

/-- A commit that succeeds settles the session of its sender, and leaves those
    of others. -/
theorem session_after {c : Commit} {l : Ledger} (h : (commit c l).1 = .ok ()) (sender : String) :
    (l.after c).session sender =
      if committer c = sender then c.settle (l.session sender) else l.session sender := by
  cases c with
  | exchange who x thread =>
    rw [after, commit, session_setSession]
    exact ite_congr rfl (fun hwho => hwho ▸ rfl) fun _ => rfl
  | bundle who x =>
    by_cases hprekey : l.prekeys.contains x.prekey
    · rw [after, commit, if_pos hprekey, session_setSession]
      exact ite_congr rfl (fun hwho => hwho ▸ rfl) fun _ => rfl
    · rw [commit, if_neg hprekey] at h
      exact nomatch h

theorem answer_stale_eq_false {l : Ledger} {sender : String} {sequence : UInt32} :
    l.answer (.stale sender sequence) = false ↔ (l.session sender).epoch ≤ sequence.toNat := by
  simp [answer]

theorem answer_trusted_eq_true {l : Ledger} {sender : String} {identity : IdentityKey} :
    l.answer (.trusted sender identity) = true ↔
      ∀ known, (l.session sender).identity = some known → known = identity := by
  cases h : (l.session sender).identity <;> simp [answer, h]

theorem answer_prekey_eq_true {l : Ledger} {id : UInt32} :
    l.answer (.prekey id) = true ↔ id ∈ l.prekeys :=
  List.contains_iff_mem

/-- The ledger has key material for new and its identity for the right one; a
    bundle's prekey is still there. -/
structure Trusts (l : Ledger) (c : Commit) : Prop where
  fresh : (l.session (committer c)).epoch ≤ c.sequence.toNat
  known : ∀ identity, (l.session (committer c)).identity = some identity → identity = c.identity
  prekey : ∀ sender x, c = .bundle sender x → x.prekey ∈ l.prekeys

/-- What the ledger trusts can be committed. -/
theorem Trusts.commit_ok {l : Ledger} {c : Commit} (h : l.Trusts c) : (commit c l).1 = .ok () := by
  cases c with
  | exchange => rfl
  | bundle sender x => rw [commit, if_pos (List.contains_iff_mem.2 (h.prekey sender x rfl))]

end Ledger

namespace Parties

variable {p : Parties μ Ledger} {d d' : Desk μ Ledger} {act : Act} {acts : List Act}

/-- The ledger changes by commits only. -/
theorem DoesAll.ledger_eq (hp : p.sessions = Ledger.store) (h : p.DoesAll d acts d')
    (hacts : ∀ act ∈ acts, act.isCommit = false) : d'.sessions = d.sessions := by
  induction h with
  | nil => rfl
  | cons hact _ ih =>
    rw [ih fun act hmem => hacts act (List.mem_cons_of_mem _ hmem)]
    cases hact with
    | asked h =>
      rw [ask, hp] at h
      exact (Prod.mk.inj h).2 ▸ rfl
    | committed => exact Bool.noConfusion (hacts _ List.mem_cons_self)
    | inserted h => exact (Prod.mk.inj h).2 ▸ rfl
    | scheduled | notified => rfl

/-- The answers to questions are true of the ledger as it was. -/
theorem DoesAll.answer_eq (hp : p.sessions = Ledger.store) (h : p.DoesAll d acts d')
    (hacts : ∀ act ∈ acts, act.isQuestion) {question : Question} {answer : Except KeyError Bool}
    (hmem : .asked question answer ∈ acts) : answer = .ok (d.sessions.answer question) := by
  induction h with
  | nil => exact nomatch hmem
  | @cons d d₁ d₂ act acts hact _ ih =>
    have hquestion : ∀ act' ∈ [act], act'.isQuestion := by simpa using hacts act List.mem_cons_self
    have hledger : d₁.sessions = d.sessions :=
      (DoesAll.single hact).ledger_eq hp (not_commit_of_questions hquestion)
    rcases List.mem_cons.1 hmem with rfl | hmem
    · cases hact with
      | asked h =>
        rw [ask, hp] at h
        exact (Prod.mk.inj h).1.symm
    · rw [ih (fun act hmem => hacts act (List.mem_cons_of_mem _ hmem)) hmem, hledger]

end Parties

variable {policy : Policy} {secret : Option MasterSecret} {m : Message} {c : Commit}
  {asked : List Act}

theorem Earns.committer_eq (h : Earns policy secret m c asked) : committer c = m.sender := by
  cases h <;> rfl

/-- What a message lets be committed is trusted by the ledger that was asked. -/
theorem Earns.trusts {p : Parties μ Ledger} {d d' : Desk μ Ledger} (hp : p.sessions = Ledger.store)
    (h : Earns policy secret m c asked) (hasked : p.DoesAll d asked d') : d.sessions.Trusts c := by
  have hanswer : ∀ {question answer}, .asked question (.ok answer) ∈ asked →
      d.sessions.answer question = answer :=
    fun hmem => (Except.ok.inj (hasked.answer_eq hp h.questions hmem)).symm
  cases h with
  | exchange thread h =>
    obtain ⟨hstale, htrusted⟩ := h.judged.asked_of_trusted
    exact ⟨Ledger.answer_stale_eq_false.1 (hanswer hstale),
      Ledger.answer_trusted_eq_true.1 (hanswer htrusted), fun _ _ h => nomatch h⟩
  | bundle h =>
    obtain ⟨hprekey, hstale, htrusted⟩ := h.judged.asked_of_trusted
    refine ⟨Ledger.answer_stale_eq_false.1 (hanswer hstale),
      Ledger.answer_trusted_eq_true.1 (hanswer htrusted), ?_⟩
    rintro _ _ ⟨⟩
    exact Ledger.answer_prekey_eq_true.1 (hanswer hprekey)

variable {p : Parties μ Ledger} {d d' : Desk μ Ledger} {acts : List Act}

/-- What a message earns is trusted by the ledger as it was, so the commit succeeds and is
    all that happens to the ledger. -/
theorem Earns.commits {before after : List Act} {answer : Except KeyError Unit}
    (hp : p.sessions = Ledger.store) (h : Earns policy secret m c asked)
    (hbefore : ∀ act ∈ before, act.isSession = false)
    (hafter : ∀ act ∈ after, act.isSession = false)
    (hacts : p.DoesAll d (asked ++ before ++ .committed c answer :: after) d') :
    d.sessions.Trusts c ∧ answer = .ok () ∧ d'.sessions = d.sessions.after c := by
  -- The ledger is asked at `d`, and the commit meets it at `d₂`. It is the same
  -- ledger: questions do not change it, and what is done between does not reach it.
  obtain ⟨d₂, h₂, hlast⟩ := hacts.of_append
  obtain ⟨d₁, hasked, h₁₂⟩ := h₂.of_append
  have htrusts := h.trusts hp hasked
  have hquiet : d₂.sessions = d.sessions := by
    rw [h₁₂.sessions_eq hbefore, hasked.ledger_eq hp (not_commit_of_questions h.questions)]
  cases hlast with
  | cons hcommit hrest =>
    cases hcommit with
    | committed hcommit =>
      rw [Parties.commit, hp, hquiet] at hcommit
      obtain ⟨rfl, rfl⟩ := Prod.mk.inj hcommit
      exact ⟨htrusts, htrusts.commit_ok, hrest.sessions_eq hafter⟩

/-- Over a ledger, a message commits nothing or something the ledger trusts, and
    then the ledger has taken it in. -/
theorem TriesCommit.after_eq {answer? : Option (Except KeyError Unit)}
    (hp : p.sessions = Ledger.store) (h : TriesCommit policy secret m acts answer?)
    (hacts : p.DoesAll d acts d') :
    (acts.filterMap Act.commit? = [] ∧ d'.sessions = d.sessions) ∨
      ∃ c, d.sessions.Trusts c ∧ acts.filterMap Act.commit? = [c] ∧
        d'.sessions = d.sessions.after c := by
  cases h with
  | none h =>
    refine .inl ⟨List.filterMap_eq_nil_iff.2 fun act hact => ?_, hacts.ledger_eq hp h⟩
    cases act with
    | committed => exact Bool.noConfusion (h _ hact)
    | asked | inserted | scheduled | notified => rfl
  | one hprecedes hafter =>
    have hearns := hprecedes.earns
    obtain ⟨htrusts, rfl, hsessions⟩ := hearns.commits hp hprecedes.not_session hafter hacts
    refine .inr ⟨_, htrusts, ?_, hsessions⟩
    simp [commits_of_questions hearns.questions, commits_of_not_session hprecedes.not_session,
      commits_of_not_session hafter, Act.commit?]

/-- Over a ledger, key material that is not trusted is set aside. -/
theorem Routes.setsAside {result : Except StorageError Outcome} (hp : p.sessions = Ledger.store)
    (h : Routes policy secret m acts result) (hacts : p.DoesAll d acts d')
    (hkind : m.kind ≠ .secureCiphertext)
    (huntrusted : ∀ c asked, Earns policy secret m c asked → ¬d.sessions.Trusts c) :
    ∃ asked flag acts', SetsAside policy secret m asked flag ∧
      StoresStandard policy secret (m.withFlag? flag) acts' result ∧ acts = asked ++ acts' := by
  -- Entries that begin with the questions behind a commit show that it is trusted.
  have hasked : ∀ {asked acts' c}, Earns policy secret m c asked →
      ¬p.DoesAll d (asked ++ acts') d' := fun hearns h =>
    let ⟨_, hasked, _⟩ := h.of_append
    huntrusted _ _ hearns (hearns.trusts hp hasked)
  cases h with
  | ciphertext h => exact absurd h hkind
  | setAside haside hstored => exact ⟨_, _, _, haside, hstored, rfl⟩
  | exchangeRefused htrust => exact absurd hacts (hasked (.exchange ⟨0⟩ htrust))
  | exchangeCommitted htrust | exchangeUncommitted htrust =>
    exact absurd (List.append_assoc _ _ _ ▸ hacts) (hasked (.exchange ⟨0⟩ htrust))
  | bundleUncommitted htrust => exact absurd hacts (hasked (.bundle htrust))
  | bundleRefused htrust => exact absurd hacts (hasked (.bundle htrust))
  | bundleAccepted htrust =>
    exact absurd (List.append_assoc _ _ _ ▸ hacts) (hasked (.bundle htrust))

end SecureInbox
