import SecureInbox.Proofs.Intake.Routing

/-!
# What the entries of a route have in common

Whatever way a message takes (`Routes`), the entries it leaves have a common
shape:

* `Routes.files`: one message is prepared and handed to the store where its kind
  belongs, and the result tells how that ended;
* `SetsAside.flag_ne_processed`: what is set aside is not marked as processed;
* `Routes.notices_of_ok`: the only notification is that of an updated session,
  for a bundle that was accepted;
* `Routes.told_of_error`: nothing is told of a message that was not stored.
-/

namespace SecureInbox

open Parties (standardPlace jobFor)

variable {policy : Policy} {secret : Option MasterSecret} {m : Message}

/-! ## Questions -/

/-- The entry is a question. -/
def Act.isQuestion : Act → Bool
  | .asked _ _ => true
  | _ => false

section

variable {asked : List Act} (hasked : ∀ act ∈ asked, act.isQuestion)

include hasked

theorem filterMap_questions {α : Type} {f : Act → Option α}
    (hf : ∀ question answer, f (.asked question answer) = none) : asked.filterMap f = [] := by
  refine List.filterMap_eq_nil_iff.2 fun act hact => ?_
  cases act with
  | asked question answer => exact hf question answer
  | committed | inserted | scheduled | notified => exact Bool.noConfusion (hasked _ hact)

theorem insertions_of_questions : asked.filterMap Act.insertion? = [] :=
  filterMap_questions hasked fun _ _ => rfl

theorem commits_of_questions : asked.filterMap Act.commit? = [] :=
  filterMap_questions hasked fun _ _ => rfl

theorem notices_of_questions : asked.filterMap Act.notice? = [] :=
  filterMap_questions hasked fun _ _ => rfl

theorem jobs_of_questions : asked.filterMap Act.job? = [] :=
  filterMap_questions hasked fun _ _ => rfl

end

theorem JudgesClaim.questions {sender : String} {sequence : UInt32} {identity : IdentityKey}
    {asked : List Act} {verdict : Verdict}
    (h : JudgesClaim sender sequence identity asked verdict) :
    ∀ act ∈ asked, act.isQuestion := by
  cases h <;> simp [Act.isQuestion]

theorem JudgesBundle.questions {sender : String} {x : PreKeyBundle} {asked : List Act}
    {verdict : Verdict} (h : JudgesBundle sender x asked verdict) :
    ∀ act ∈ asked, act.isQuestion := by
  cases h with
  | prekeyFails | prekeyGone => simp [Act.isQuestion]
  | claim h => exact List.forall_mem_cons.2 ⟨rfl, h.questions⟩

theorem JudgesClaim.asked_of_trusted {sender : String} {sequence : UInt32} {identity : IdentityKey}
    {asked : List Act} (h : JudgesClaim sender sequence identity asked .trusted) :
    .asked (.stale sender sequence) (.ok false) ∈ asked ∧
      .asked (.trusted sender identity) (.ok true) ∈ asked := by
  cases h
  simp

theorem JudgesBundle.asked_of_trusted {sender : String} {x : PreKeyBundle} {asked : List Act}
    (h : JudgesBundle sender x asked .trusted) :
    .asked (.prekey x.prekey) (.ok true) ∈ asked ∧
      .asked (.stale sender x.sequence) (.ok false) ∈ asked ∧
        .asked (.trusted sender x.identityKey) (.ok true) ∈ asked := by
  cases h with
  | claim h => simp [h.asked_of_trusted]

theorem SetsAside.questions {asked : List Act} {flag : Option Flag}
    (h : SetsAside policy secret m asked flag) : ∀ act ∈ asked, act.isQuestion := by
  cases h with
  | plain | unanswered | unreadableExchange | unreadableBundle => simp
  | refusedExchange _ _ h => exact h.questions
  | refusedBundle _ _ h => exact h.questions

/-! ## Insertions -/

/-- Where a message of a kind is put, and along which path. -/
def placeFor (policy : Policy) (secret : Option MasterSecret) (kind : Kind) :
    Placement × StoragePath :=
  if kind = .secureCiphertext then (.encrypted secret, .secure) else standardPlace policy secret

/-- The jobs that a stored message leads to. -/
def jobsFor (secret : Option MasterSecret) (identity : StoredIdentity) (m : Message) :
    List DecryptionJob :=
  if m.kind = .secureCiphertext then (secret.map fun s => jobFor s identity m).toList else []

/-- There is one insertion among the entries, of `m` where its kind belongs. The result
    reports how that ended, and the jobs are those for what was stored. -/
inductive Files (policy : Policy) (secret : Option MasterSecret) (m : Message) (acts : List Act) :
    Except StorageError Outcome → Prop
  | stored {outcome : Outcome} :
      acts.filterMap Act.insertion? =
        [((placeFor policy secret m.kind).1, m, .ok outcome.identity)] →
      acts.filterMap Act.job? = jobsFor secret outcome.identity m →
      outcome.path = (placeFor policy secret m.kind).2 →
      outcome.kind = m.kind → outcome.flags = m.flags → Files policy secret m acts (.ok outcome)
  | refused {e : StorageError} :
      acts.filterMap Act.insertion? = [((placeFor policy secret m.kind).1, m, .error e)] →
      Files policy secret m acts (.error e)

/-- The form in which a message is handed to the store, and what is entered before
    that. -/
inductive Prepares (policy : Policy) (secret : Option MasterSecret) (m : Message) :
    List Act → Message → Prop
  | ciphertext : m.kind = .secureCiphertext → Prepares policy secret m [] m
  | setAside {asked : List Act} {flag : Option Flag} : SetsAside policy secret m asked flag →
      Prepares policy secret m asked (m.withFlag? flag)
  | exchange {x : KeyExchange} {asked : List Act} : TrustsExchange policy secret m x asked →
      Prepares policy secret m asked (m.withFlag .processed)
  | uncommitted {x : PreKeyBundle} {asked : List Act} {e : KeyError} : TrustsBundle m x asked →
      Prepares policy secret m (asked ++ [.committed (.bundle m.sender x) (.error e)])
        (m.withFlag e.flag)
  | inner {x : PreKeyBundle} {asked : List Act} : TrustsBundle m x asked →
      Prepares policy secret m (asked ++ [.committed (.bundle m.sender x) (.ok ())]) (m.inner x)

variable {acts acts' : List Act} {result : Except StorageError Outcome}

namespace Files

/-- Other entries will do if they have the same insertions and jobs. -/
theorem congr (h : Files policy secret m acts result)
    (hinsertions : acts'.filterMap Act.insertion? = acts.filterMap Act.insertion?)
    (hjobs : acts'.filterMap Act.job? = acts.filterMap Act.job?) :
    Files policy secret m acts' result := by
  cases h with
  | stored h hj hpath hkind hflags =>
    exact .stored (hinsertions.trans h) (hjobs.trans hj) hpath hkind hflags
  | refused h => exact .refused (hinsertions.trans h)

/-- What is inserted when a message is stored. -/
theorem insertion {outcome : Outcome} (h : Files policy secret m acts (.ok outcome)) :
    acts.filterMap Act.insertion? =
      [((placeFor policy secret m.kind).1, m, .ok outcome.identity)] := by
  cases h with
  | stored h => exact h

theorem exists_insertion (h : Files policy secret m acts result) :
    ∃ answer, acts.filterMap Act.insertion? =
      [((placeFor policy secret m.kind).1, m, answer)] := by
  cases h with
  | stored h | refused h => exact ⟨_, h⟩

/-- A fault of the session store changes nothing of how a message is filed. -/
theorem degrade (h : Files policy secret m acts result) (error : String) :
    Files policy secret m acts (result.map (·.degrade error)) := by
  cases h with
  | stored h hj hpath hkind hflags =>
    exact @stored _ _ _ _ (Outcome.degrade _ error) h hj hpath hkind hflags
  | refused h => exact .refused h

end Files

theorem StoresStandard.files (h : StoresStandard policy secret m acts result)
    (hkind : m.kind ≠ .secureCiphertext) : Files policy secret m acts result := by
  have hplace : placeFor policy secret m.kind = standardPlace policy secret := if_neg hkind
  cases h with
  | stored identity => exact .stored (hplace ▸ rfl) (if_neg hkind).symm (hplace ▸ rfl) rfl rfl
  | refused e => exact .refused (hplace ▸ rfl)

theorem StoresSecure.files (h : StoresSecure secret m acts result)
    (hkind : m.kind = .secureCiphertext) : Files policy secret m acts result := by
  have hplace : placeFor policy secret m.kind = (.encrypted secret, .secure) := if_pos hkind
  cases h with
  | stored identity =>
    have hjobs : jobsFor secret identity m = _ := if_pos hkind
    cases secret <;> exact .stored (hplace ▸ rfl) (hjobs ▸ rfl) (hplace ▸ rfl) rfl rfl
  | refused e => exact .refused (hplace ▸ rfl)

section

variable (m) (flag : Option Flag)

theorem Message.sender_withFlag? : (m.withFlag? flag).sender = m.sender := by
  cases flag <;> rfl

theorem Message.body_withFlag? : (m.withFlag? flag).body = m.body := by
  cases flag <;> rfl

theorem Message.timestamp_withFlag? : (m.withFlag? flag).timestamp = m.timestamp := by
  cases flag <;> rfl

theorem Message.kind_withFlag? : (m.withFlag? flag).kind = m.kind := by
  cases flag <;> rfl

end

theorem Prepares.sender_eq {m' : Message} (h : Prepares policy secret m acts m') :
    m'.sender = m.sender := by
  cases h with
  | setAside => exact m.sender_withFlag? _
  | ciphertext | exchange | uncommitted | inner => rfl

theorem Prepares.timestamp_eq {m' : Message} (h : Prepares policy secret m acts m') :
    m'.timestamp = m.timestamp := by
  cases h with
  | setAside => exact m.timestamp_withFlag? _
  | ciphertext | exchange | uncommitted | inner => rfl

/-- What is set aside is no ciphertext. -/
theorem SetsAside.kind_ne {flag : Option Flag} (h : SetsAside policy secret m acts flag) :
    m.kind ≠ .secureCiphertext := fun hcipher => by
  cases h with
  | plain h | unanswered h | unreadableBundle h | refusedBundle h =>
    exact nomatch hcipher.symm.trans h
  | unreadableExchange h | refusedExchange h => exact nomatch hcipher.symm.trans h.kind

theorem TrustsExchange.kind_ne {x : KeyExchange} (h : TrustsExchange policy secret m x acts) :
    m.kind ≠ .secureCiphertext := fun hcipher =>
  nomatch hcipher.symm.trans h.answered.kind

theorem TrustsBundle.kind_ne {x : PreKeyBundle} (h : TrustsBundle m x acts) :
    m.kind ≠ .secureCiphertext := fun hcipher => nomatch hcipher.symm.trans h.kind

/-- Whatever way a message takes, it is prepared and then filed. -/
theorem Routes.files (h : Routes policy secret m acts result) :
    ∃ before m', Prepares policy secret m before m' ∧ before <+: acts ∧
      Files policy secret m' acts result := by
  cases h with
  | ciphertext hkind h => exact ⟨[], m, .ciphertext hkind, List.nil_prefix, h.files hkind⟩
  | setAside haside h =>
    refine ⟨_, _, .setAside haside, List.prefix_append _ _,
      (h.files (m.kind_withFlag? _ ▸ haside.kind_ne)).congr ?_ ?_⟩
    · simp [insertions_of_questions haside.questions]
    · simp [jobs_of_questions haside.questions]
  | exchangeRefused htrust h =>
    refine ⟨_, _, .exchange htrust, List.prefix_append _ _, (h.files htrust.kind_ne).congr ?_ ?_⟩
    · simp [insertions_of_questions htrust.judged.questions]
    · simp [jobs_of_questions htrust.judged.questions]
  | exchangeCommitted htrust h =>
    refine ⟨_, _, .exchange htrust, ?_, (h.files htrust.kind_ne).congr ?_ ?_⟩
    · simp
    · simp [insertions_of_questions htrust.judged.questions, Act.insertion?]
    · simp [jobs_of_questions htrust.judged.questions, Act.job?]
  | exchangeUncommitted htrust h =>
    refine ⟨_, _, .exchange htrust, ?_, ((h.files htrust.kind_ne).degrade _).congr ?_ ?_⟩
    · simp
    · simp [insertions_of_questions htrust.judged.questions, Act.insertion?]
    · simp [jobs_of_questions htrust.judged.questions, Act.job?]
  | bundleUncommitted htrust h =>
    refine ⟨_, _, .uncommitted htrust, ?_, ((h.files htrust.kind_ne).degrade _).congr ?_ ?_⟩
    · simp
    · simp [insertions_of_questions htrust.judged.questions, List.filterMap_cons, Act.insertion?]
    · simp [jobs_of_questions htrust.judged.questions, List.filterMap_cons, Act.job?]
  | bundleRefused htrust h | bundleAccepted htrust h =>
    refine ⟨_, _, .inner htrust, ?_, (h.files rfl).congr ?_ ?_⟩
    · simp
    · simp [insertions_of_questions htrust.judged.questions, List.filterMap_cons, Act.insertion?]
    · simp [jobs_of_questions htrust.judged.questions, List.filterMap_cons, Act.job?]

/-! ## Flags -/

theorem Rejection.flag_ne_processed (reason : Rejection) : reason.flag ≠ some .processed := by
  cases reason <;> exact nofun

theorem Verdict.flag_ne_processed (verdict : Verdict) : verdict.flag ≠ some .processed := by
  cases verdict with
  | trusted | stale => exact nofun
  | invalid reason => exact reason.flag_ne_processed

theorem KeyError.flag_ne_processed (e : KeyError) : some e.flag ≠ some .processed := by
  cases e <;> exact nofun

theorem SetsAside.flag_ne_processed {flag : Option Flag}
    (h : SetsAside policy secret m acts flag) : flag ≠ some .processed := by
  cases h with
  | plain | unanswered => exact nofun
  | unreadableExchange | unreadableBundle => exact KeyError.flag_ne_processed _
  | refusedExchange | refusedBundle => exact Verdict.flag_ne_processed _

theorem Message.processed_withFlag? {flag : Option Flag} (hflag : flag ≠ some .processed) :
    (m.withFlag? flag).flags.contains .processed = m.flags.contains .processed := by
  cases flag with
  | none => rfl
  | some f =>
    have hf : f ≠ .processed := fun h => hflag (h ▸ rfl)
    simp [withFlag?, withFlag, hf]

/-! ## Commits -/

/-- The entry is a commit, whether it succeeded or not. -/
def Act.isCommit : Act → Bool
  | .committed _ _ => true
  | _ => false

theorem isCommit_of_isSession {act : Act} (h : act.isSession = false) : act.isCommit = false := by
  cases act with
  | committed => exact Bool.noConfusion h
  | asked | inserted | scheduled | notified => rfl

theorem isCommit_of_isQuestion {act : Act} (h : act.isQuestion) : act.isCommit = false := by
  cases act with
  | asked => rfl
  | committed | inserted | scheduled | notified => exact Bool.noConfusion h

theorem not_commit_of_questions {asked : List Act} (h : ∀ act ∈ asked, act.isQuestion) :
    ∀ act ∈ asked, act.isCommit = false :=
  fun act hact => isCommit_of_isQuestion (h act hact)

theorem not_commit_of_not_session {acts : List Act} (h : ∀ act ∈ acts, act.isSession = false) :
    ∀ act ∈ acts, act.isCommit = false :=
  fun act hact => isCommit_of_isSession (h act hact)

theorem StoresStandard.not_session (h : StoresStandard policy secret m acts result) :
    ∀ act ∈ acts, act.isSession = false := by
  cases h <;> simp [Act.isSession]

theorem StoresSecure.not_session (h : StoresSecure secret m acts result) :
    ∀ act ∈ acts, act.isSession = false := by
  cases h with
  | stored identity => cases secret <;> simp [jobEntries, Act.isSession]
  | refused => simp [Act.isSession]

/-! ## What is told -/

/-- The message holds a bundle that was trusted and committed. -/
def AcceptsBundle (m : Message) (acts : List Act) : Prop :=
  ∃ x asked, TrustsBundle m x asked ∧ asked ++ [.committed (.bundle m.sender x) (.ok ())] <+: acts

/-- The commits of an accepted bundle's entries include the bundle. -/
theorem AcceptsBundle.exists_commit (h : AcceptsBundle m acts) :
    ∃ x, Commit.bundle m.sender x ∈ acts.filterMap Act.commit? := by
  obtain ⟨x, asked, -, rest, rfl⟩ := h
  exact ⟨x, List.mem_filterMap.2 ⟨.committed (.bundle m.sender x) (.ok ()), by simp, rfl⟩⟩

theorem commits_of_not_session (h : ∀ act ∈ acts, act.isSession = false) :
    acts.filterMap Act.commit? = [] := by
  refine List.filterMap_eq_nil_iff.2 fun act hact => ?_
  cases act with
  | asked | committed => exact Bool.noConfusion (h _ hact)
  | inserted | scheduled | notified => rfl

theorem StoresStandard.told (h : StoresStandard policy secret m acts result) :
    acts.filterMap Act.notice? = [] ∧ acts.filterMap Act.job? = [] := by
  cases h <;> exact ⟨rfl, rfl⟩

theorem StoresSecure.notices_eq_nil (h : StoresSecure secret m acts result) :
    acts.filterMap Act.notice? = [] := by
  cases h with
  | stored identity => cases secret <;> rfl
  | refused => rfl

/-- Of a message that was not stored nothing is told. -/
theorem Routes.told_of_error {e : StorageError} (h : Routes policy secret m acts (.error e)) :
    acts.filterMap Act.notice? = [] ∧ acts.filterMap Act.job? = [] := by
  generalize hresult : Except.error e = result at h
  cases h with
  | ciphertext _ h =>
    cases h with
    | stored => cases hresult
    | refused => exact ⟨rfl, rfl⟩
  | setAside haside h =>
    simp [notices_of_questions haside.questions, jobs_of_questions haside.questions, h.told]
  | exchangeRefused htrust h =>
    simp [notices_of_questions htrust.judged.questions, jobs_of_questions htrust.judged.questions,
      h.told]
  | exchangeCommitted | exchangeUncommitted | bundleAccepted => cases hresult
  | bundleUncommitted htrust h =>
    simp [notices_of_questions htrust.judged.questions, jobs_of_questions htrust.judged.questions,
      h.told, List.filterMap_cons, Act.notice?, Act.job?]
  | bundleRefused htrust h =>
    cases h
    simp [notices_of_questions htrust.judged.questions, jobs_of_questions htrust.judged.questions,
      List.filterMap_cons, Act.notice?, Act.job?]

/-- Of a message that was stored, only the update of its session is told, and
    only if it is a bundle that was accepted. -/
theorem Routes.notices_of_ok {outcome : Outcome}
    (h : Routes policy secret m acts (.ok outcome)) :
    (AcceptsBundle m acts ∧
        acts.filterMap Act.notice? = [.securityUpdated outcome.identity.thread]) ∨
      (¬AcceptsBundle m acts ∧ acts.filterMap Act.notice? = []) := by
  generalize hresult : Except.ok outcome = result at h
  -- A bundle that is accepted was committed, so where nothing is committed no
  -- bundle is accepted. An exchange is committed too, but is no bundle.
  have hnone : acts.filterMap Act.commit? = [] → ¬AcceptsBundle m acts := fun hcommits haccepts =>
    let ⟨_, hmem⟩ := haccepts.exists_commit
    List.not_mem_nil (hcommits ▸ hmem)
  cases h with
  | ciphertext _ h =>
    exact .inr ⟨hnone (commits_of_not_session h.not_session), h.notices_eq_nil⟩
  | setAside haside h =>
    refine .inr ⟨hnone ?_, ?_⟩
    · simp [commits_of_questions haside.questions, commits_of_not_session h.not_session]
    · simp [notices_of_questions haside.questions, h.told]
  | exchangeRefused | bundleRefused => cases hresult
  | exchangeCommitted htrust h | exchangeUncommitted htrust h =>
    refine .inr ⟨fun ⟨_, _, hbundle, _⟩ => ?_, ?_⟩
    · exact Kind.noConfusion (htrust.answered.kind.symm.trans hbundle.kind)
    · simp [notices_of_questions htrust.judged.questions, h.told, Act.notice?]
  | bundleUncommitted htrust h =>
    refine .inr ⟨hnone ?_, ?_⟩
    · simp [commits_of_questions htrust.judged.questions, commits_of_not_session h.not_session,
        List.filterMap_cons, Act.commit?]
    · simp [notices_of_questions htrust.judged.questions, h.told, List.filterMap_cons, Act.notice?]
  | bundleAccepted htrust h =>
    cases hresult
    refine .inl ⟨⟨_, _, htrust, ?_⟩, ?_⟩
    · simp
    · simp [notices_of_questions htrust.judged.questions, h.notices_eq_nil, List.filterMap_cons,
        Act.notice?]

end SecureInbox
