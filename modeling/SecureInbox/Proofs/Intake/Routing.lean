import SecureInbox.Intake.Route
import SecureInbox.Proofs.Intake.Journal

/-!
# What routing enters in the journal

Routing is told twice: by the functions of `SecureInbox.Intake.Route`, which
call the parties, and here by the entries those calls leave and the result they
lead to (`Routes`). The relation knows nothing of how the stores work; each of
their answers is one that an entry shows.

* `Parties.judgeClaim_performs`, `Parties.judgeBundle_performs`: the questions
  behind a verdict;
* `Parties.storeStandard_performs`, `Parties.storeSecure_performs`: the entries
  of the two paths into the store;
* `Parties.route_performs`: whatever routing does is allowed by `Routes`.
-/

namespace SecureInbox

open Parties (standardPlace jobFor)

variable {μ σ : Type}

/-! ## Verdicts -/

/-- The questions that lead to a verdict on a sequence and an identity. -/
inductive JudgesClaim (sender : String) (sequence : UInt32) (identity : IdentityKey) :
    List Act → Verdict → Prop
  | staleFails (e : KeyError) :
      JudgesClaim sender sequence identity [.asked (.stale sender sequence) (.error e)]
        (.invalid (.ofError e))
  | stale :
      JudgesClaim sender sequence identity [.asked (.stale sender sequence) (.ok true)] .stale
  | trustFails (e : KeyError) :
      JudgesClaim sender sequence identity
        [.asked (.stale sender sequence) (.ok false), .asked (.trusted sender identity) (.error e)]
        (.invalid (.ofError e))
  | untrusted :
      JudgesClaim sender sequence identity
        [.asked (.stale sender sequence) (.ok false), .asked (.trusted sender identity) (.ok false)]
        (.invalid .untrusted)
  | trusted :
      JudgesClaim sender sequence identity
        [.asked (.stale sender sequence) (.ok false), .asked (.trusted sender identity) (.ok true)]
        .trusted

/-- The questions that lead to a verdict on a bundle. -/
inductive JudgesBundle (sender : String) (x : PreKeyBundle) : List Act → Verdict → Prop
  | prekeyFails (e : KeyError) :
      JudgesBundle sender x [.asked (.prekey x.prekey) (.error e)] (.invalid (.ofError e))
  | prekeyGone :
      JudgesBundle sender x [.asked (.prekey x.prekey) (.ok false)] (.invalid .stalePreKey)
  | claim {asked : List Act} {verdict : Verdict} :
      JudgesClaim sender x.sequence x.identityKey asked verdict →
      JudgesBundle sender x (.asked (.prekey x.prekey) (.ok true) :: asked) verdict

/-! ## Paths into the store -/

/-- The entries of the standard path: one insertion, which settles the
    outcome. -/
inductive StoresStandard (policy : Policy) (secret : Option MasterSecret) (m : Message) :
    List Act → Except StorageError Outcome → Prop
  | stored (identity : StoredIdentity) :
      StoresStandard policy secret m
        [.inserted (standardPlace policy secret).1 m (.ok identity)]
        (.ok (.ofMessage identity m (standardPlace policy secret).2))
  | refused (e : StorageError) :
      StoresStandard policy secret m [.inserted (standardPlace policy secret).1 m (.error e)]
        (.error e)

/-- The jobs entered for a message on the secure path. -/
def jobEntries (secret : Option MasterSecret) (identity : StoredIdentity) (m : Message) :
    List Act :=
  (secret.map fun s => Act.scheduled (jobFor s identity m)).toList

/-- The entries of the secure path: one insertion, and a job if there is a live
    secret. -/
inductive StoresSecure (secret : Option MasterSecret) (m : Message) :
    List Act → Except StorageError Outcome → Prop
  | stored (identity : StoredIdentity) :
      StoresSecure secret m
        (.inserted (.encrypted secret) m (.ok identity) :: jobEntries secret identity m)
        (.ok (.ofMessage identity m .secure))
  | refused (e : StorageError) :
      StoresSecure secret m [.inserted (.encrypted secret) m (.error e)] (.error e)

/-! ## Routes -/

/-- The message is a key exchange that is looked at. -/
structure IsAnswered (policy : Policy) (secret : Option MasterSecret) (m : Message) : Prop where
  kind : m.kind = .keyExchange
  live : secret.isSome
  autoRespond : policy.autoRespond = true

/-- The message holds the trusted key exchange `x`, as the answers to `asked`
    show. -/
structure TrustsExchange (policy : Policy) (secret : Option MasterSecret) (m : Message)
    (x : KeyExchange) (asked : List Act) : Prop where
  answered : IsAnswered policy secret m
  decoded : KeyExchange.decode m.body = .ok x
  judged : JudgesClaim m.sender x.sequence x.identityKey asked .trusted

/-- The message holds the trusted bundle `x`, as the answers to `asked` show. -/
structure TrustsBundle (m : Message) (x : PreKeyBundle) (asked : List Act) : Prop where
  kind : m.kind = .preKeyBundle
  decoded : PreKeyBundle.decode m.body = .ok x
  judged : JudgesBundle m.sender x asked .trusted

/-- The questions after which a message is stored as it came, with the flag it
    gets: it is plain, a key exchange left for the user, or key material that
    cannot be read or is not trusted. -/
inductive SetsAside (policy : Policy) (secret : Option MasterSecret) (m : Message) :
    List Act → Option Flag → Prop
  | plain : m.kind = .plain → SetsAside policy secret m [] none
  | unanswered : m.kind = .keyExchange → ¬IsAnswered policy secret m →
      SetsAside policy secret m [] none
  | unreadableExchange {e : KeyError} : IsAnswered policy secret m →
      KeyExchange.decode m.body = .error e → SetsAside policy secret m [] (some e.flag)
  | refusedExchange {x : KeyExchange} {asked : List Act} {verdict : Verdict} :
      IsAnswered policy secret m → KeyExchange.decode m.body = .ok x →
      JudgesClaim m.sender x.sequence x.identityKey asked verdict → verdict ≠ .trusted →
      SetsAside policy secret m asked verdict.flag
  | unreadableBundle {e : KeyError} : m.kind = .preKeyBundle →
      PreKeyBundle.decode m.body = .error e → SetsAside policy secret m [] (some e.flag)
  | refusedBundle {x : PreKeyBundle} {asked : List Act} {verdict : Verdict} :
      m.kind = .preKeyBundle → PreKeyBundle.decode m.body = .ok x →
      JudgesBundle m.sender x asked verdict → verdict ≠ .trusted →
      SetsAside policy secret m asked verdict.flag

/-- The message inside a bundle. -/
def Message.inner (m : Message) (x : PreKeyBundle) : Message :=
  m.withBody x.innerBody .secureCiphertext

/-- The entries that routing a message adds to the journal, and its result. -/
inductive Routes (policy : Policy) (secret : Option MasterSecret) (m : Message) :
    List Act → Except StorageError Outcome → Prop
  | ciphertext {acts : List Act} {result : Except StorageError Outcome} :
      m.kind = .secureCiphertext → StoresSecure secret m acts result →
      Routes policy secret m acts result
  | setAside {asked acts : List Act} {flag : Option Flag}
      {result : Except StorageError Outcome} :
      SetsAside policy secret m asked flag →
      StoresStandard policy secret (m.withFlag? flag) acts result →
      Routes policy secret m (asked ++ acts) result
  | exchangeRefused {x : KeyExchange} {asked acts : List Act} {e : StorageError} :
      TrustsExchange policy secret m x asked →
      StoresStandard policy secret (m.withFlag .processed) acts (.error e) →
      Routes policy secret m (asked ++ acts) (.error e)
  | exchangeCommitted {x : KeyExchange} {asked acts : List Act} {outcome : Outcome} :
      TrustsExchange policy secret m x asked →
      StoresStandard policy secret (m.withFlag .processed) acts (.ok outcome) →
      Routes policy secret m
        (asked ++ acts ++ [.committed (.exchange m.sender x outcome.identity.thread) (.ok ())])
        (.ok outcome)
  | exchangeUncommitted {x : KeyExchange} {asked acts : List Act} {outcome : Outcome}
      {e : KeyError} :
      TrustsExchange policy secret m x asked →
      StoresStandard policy secret (m.withFlag .processed) acts (.ok outcome) →
      Routes policy secret m
        (asked ++ acts ++ [.committed (.exchange m.sender x outcome.identity.thread) (.error e)])
        (.ok (outcome.degrade e.message))
  | bundleUncommitted {x : PreKeyBundle} {asked acts : List Act} {e : KeyError}
      {result : Except StorageError Outcome} :
      TrustsBundle m x asked →
      StoresStandard policy secret (m.withFlag e.flag) acts result →
      Routes policy secret m (asked ++ .committed (.bundle m.sender x) (.error e) :: acts)
        (result.map (·.degrade e.message))
  | bundleRefused {x : PreKeyBundle} {asked acts : List Act} {e : StorageError} :
      TrustsBundle m x asked →
      StoresSecure secret (m.inner x) acts (.error e) →
      Routes policy secret m (asked ++ .committed (.bundle m.sender x) (.ok ()) :: acts)
        (.error e)
  | bundleAccepted {x : PreKeyBundle} {asked acts : List Act} {outcome : Outcome} :
      TrustsBundle m x asked →
      StoresSecure secret (m.inner x) acts (.ok outcome) →
      Routes policy secret m
        (asked ++ .committed (.bundle m.sender x) (.ok ()) :: acts ++
          [.notified (.securityUpdated outcome.identity.thread)])
        (.ok outcome)

namespace Parties

variable (p : Parties μ σ) (policy : Policy) (secret : Option MasterSecret) (m : Message)
  (d : Desk μ σ)

theorem judgeClaim_performs (sender : String) (sequence : UInt32) (identity : IdentityKey) :
    p.Performs (JudgesClaim sender sequence identity) d
      (judgeClaim p.ask sender sequence identity d) := by
  rcases h : p.ask (.stale sender sequence) d with ⟨e | _ | _, d₁⟩
  · simp only [judgeClaim, h]
    exact ⟨_, .single (.asked h), .staleFails e⟩
  · simp only [judgeClaim, judgeIdentity, h]
    rcases h' : p.ask (.trusted sender identity) d₁ with ⟨e | _ | _, d₂⟩
    · exact ⟨_, .cons (.asked h) (.single (.asked h')), .trustFails e⟩
    · exact ⟨_, .cons (.asked h) (.single (.asked h')), .untrusted⟩
    · exact ⟨_, .cons (.asked h) (.single (.asked h')), .trusted⟩
  · simp only [judgeClaim, h]
    exact ⟨_, .single (.asked h), .stale⟩

theorem judgeBundle_performs (sender : String) (x : PreKeyBundle) :
    p.Performs (JudgesBundle sender x) d (judgeBundle p.ask sender x d) := by
  rcases h : p.ask (.prekey x.prekey) d with ⟨e | _ | _, d₁⟩
  · simp only [judgeBundle, h]
    exact ⟨_, .single (.asked h), .prekeyFails e⟩
  · simp only [judgeBundle, h]
    exact ⟨_, .single (.asked h), .prekeyGone⟩
  · simp only [judgeBundle, h]
    obtain ⟨acts, hacts, hjudged⟩ := p.judgeClaim_performs d₁ sender x.sequence x.identityKey
    exact ⟨_, .cons (.asked h) hacts, .claim hjudged⟩

theorem storeStandard_eq :
    p.storeStandard policy secret m d =
      match p.insert (standardPlace policy secret).1 m d with
      | (.error e, d) => (.error e, d)
      | (.ok identity, d) =>
        (.ok (Outcome.ofMessage identity m (standardPlace policy secret).2), d) := rfl

theorem storeStandard_performs :
    p.Performs (StoresStandard policy secret m) d (p.storeStandard policy secret m d) := by
  rw [storeStandard_eq]
  rcases h : p.insert (standardPlace policy secret).1 m d with ⟨e | identity, d₁⟩
  · exact ⟨_, .single (.inserted h), .refused e⟩
  · exact ⟨_, .single (.inserted h), .stored identity⟩

theorem storeSecure_performs :
    p.Performs (StoresSecure secret m) d (p.storeSecure secret m d) := by
  rcases h : p.insert (.encrypted secret) m d with ⟨e | identity, d₁⟩
  · simp only [storeSecure, h]
    exact ⟨_, .single (.inserted h), .refused e⟩
  · simp only [storeSecure, h]
    refine ⟨_, .cons (.inserted h) ?_, .stored identity⟩
    cases secret with
    | none => exact .nil _
    | some s => exact .single (.scheduled _ _)

theorem storeInner_eq (x : PreKeyBundle) :
    p.storeInner secret m x d =
      match p.storeSecure secret (m.inner x) d with
      | (.error e, d) => (.error e, d)
      | (.ok outcome, d) =>
        (.ok outcome, d.note (.notified (.securityUpdated outcome.identity.thread))) := rfl

variable {d} {d₀ : Desk μ σ} {asked : List Act}

theorem acceptBundle_performs {x : PreKeyBundle} (hasked : p.DoesAll d₀ asked d)
    (htrust : TrustsBundle m x asked) :
    p.Performs (Routes policy secret m) d₀ (p.acceptBundle policy secret m x d) := by
  -- The commit comes first: if it fails, the bundle itself is stored, and if it
  -- succeeds, the message inside.
  rcases h : p.commit (.bundle m.sender x) d with ⟨e | _, d₁⟩
  · simp only [acceptBundle, h]
    obtain ⟨acts, hacts, hstored⟩ :=
      p.storeStandard_performs policy secret (m.withFlag e.flag) d₁
    rcases hs : p.storeStandard policy secret (m.withFlag e.flag) d₁ with ⟨_ | _, d₂⟩ <;>
      rw [hs] at hacts hstored <;>
      exact ⟨_, hasked.append (.cons (.committed h) hacts), .bundleUncommitted htrust hstored⟩
  · simp only [acceptBundle, h, storeInner_eq]
    obtain ⟨acts, hacts, hstored⟩ := p.storeSecure_performs secret (m.inner x) d₁
    have hacts := hasked.append (.cons (.committed h) hacts)
    rcases hs : p.storeSecure secret (m.inner x) d₁ with ⟨_ | outcome, d₂⟩ <;>
      rw [hs] at hacts hstored
    · exact ⟨_, hacts, .bundleRefused htrust hstored⟩
    · exact ⟨_, hacts.append (.single (.notified _ _)), .bundleAccepted htrust hstored⟩

theorem acceptExchange_performs {live : MasterSecret} {x : KeyExchange}
    (hasked : p.DoesAll d₀ asked d) (htrust : TrustsExchange policy (some live) m x asked) :
    p.Performs (Routes policy (some live) m) d₀ (p.acceptExchange policy live m x d) := by
  -- Here storing comes first, since the commit names the thread.
  obtain ⟨acts, hacts, hstored⟩ :=
    p.storeStandard_performs policy (some live) (m.withFlag .processed) d
  have hacts := hasked.append hacts
  rcases hs : p.storeStandard policy (some live) (m.withFlag .processed) d with ⟨_ | outcome, d₁⟩ <;>
    rw [hs] at hacts hstored <;> simp only [acceptExchange, hs]
  · exact ⟨_, hacts, .exchangeRefused htrust hstored⟩
  · rcases h : p.commit (.exchange m.sender x outcome.identity.thread) d₁ with ⟨_ | _, d₂⟩
    · exact ⟨_, hacts.append (.single (.committed h)), .exchangeUncommitted htrust hstored⟩
    · exact ⟨_, hacts.append (.single (.committed h)), .exchangeCommitted htrust hstored⟩

/-- A message that is set aside takes the standard path. -/
theorem setAside_performs {flag : Option Flag} (hasked : p.DoesAll d₀ asked d)
    (haside : SetsAside policy secret m asked flag) :
    p.Performs (Routes policy secret m) d₀
      (p.storeStandard policy secret (m.withFlag? flag) d) := by
  obtain ⟨acts, hacts, hstored⟩ := p.storeStandard_performs policy secret (m.withFlag? flag) d
  exact ⟨_, hasked.append hacts, .setAside haside hstored⟩

variable (d)

theorem routeBundle_performs (hkind : m.kind = .preKeyBundle) :
    p.Performs (Routes policy secret m) d (p.routeBundle policy secret m d) := by
  cases hx : PreKeyBundle.decode m.body with
  | error e =>
    simp only [routeBundle, hx]
    exact p.setAside_performs policy secret m (.nil d) (.unreadableBundle hkind hx)
  | ok x =>
    obtain ⟨asked, hasked, hjudged⟩ := p.judgeBundle_performs d m.sender x
    rcases hj : judgeBundle p.ask m.sender x d with ⟨verdict, d₁⟩
    rw [hj] at hasked hjudged
    cases verdict with
    | trusted =>
      simp only [routeBundle, hx, hj]
      exact p.acceptBundle_performs policy secret m hasked ⟨hkind, hx, hjudged⟩
    | stale | invalid =>
      simp only [routeBundle, hx, hj]
      exact p.setAside_performs policy secret m hasked
        (.refusedBundle hkind hx hjudged Verdict.noConfusion)

theorem answerExchange_performs {live : MasterSecret} (h : IsAnswered policy (some live) m) :
    p.Performs (Routes policy (some live) m) d (p.answerExchange policy live m d) := by
  cases hx : KeyExchange.decode m.body with
  | error e =>
    simp only [answerExchange, hx]
    exact p.setAside_performs policy (some live) m (.nil d) (.unreadableExchange h hx)
  | ok x =>
    obtain ⟨asked, hasked, hjudged⟩ :=
      p.judgeClaim_performs d m.sender x.sequence x.identityKey
    rcases hj : judgeExchange p.ask m.sender x d with ⟨verdict, d₁⟩
    rw [← judgeExchange, hj] at hasked hjudged
    cases verdict with
    | trusted =>
      simp only [answerExchange, hx, hj]
      exact p.acceptExchange_performs policy m hasked ⟨h, hx, hjudged⟩
    | stale | invalid =>
      simp only [answerExchange, hx, hj]
      exact p.setAside_performs policy (some live) m hasked
        (.refusedExchange h hx hjudged Verdict.noConfusion)

theorem routeExchange_performs (hkind : m.kind = .keyExchange) :
    p.Performs (Routes policy secret m) d (p.routeExchange policy secret m d) := by
  rcases secret with _ | live
  · exact p.setAside_performs policy none m (.nil d)
      (.unanswered hkind fun h => Bool.noConfusion h.live)
  · cases hauto : policy.autoRespond with
    | true =>
      simp only [routeExchange, hauto]
      exact p.answerExchange_performs policy m d ⟨hkind, rfl, hauto⟩
    | false =>
      simp only [routeExchange, hauto]
      exact p.setAside_performs policy (some live) m (.nil d)
        (.unanswered hkind fun h => Bool.noConfusion (hauto.symm.trans h.autoRespond))

/-- Whatever routing does is allowed by `Routes`. -/
theorem route_performs :
    p.Performs (Routes policy secret m) d (p.route policy secret m d) := by
  cases hkind : m.kind with
  | plain =>
    simp only [route, hkind]
    exact p.setAside_performs policy secret m (.nil d) (.plain hkind)
  | secureCiphertext =>
    simp only [route, hkind]
    obtain ⟨acts, hacts, hstored⟩ := p.storeSecure_performs secret m d
    exact ⟨acts, hacts, .ciphertext hkind hstored⟩
  | keyExchange =>
    simp only [route, hkind]
    exact p.routeExchange_performs policy secret m d hkind
  | preKeyBundle =>
    simp only [route, hkind]
    exact p.routeBundle_performs policy secret m d hkind

end Parties

end SecureInbox
