import SecureInbox.Mailbox.Faulty
import SecureInbox.Proofs.Intake.Noninterference
import SecureInbox.Proofs.Session.Verdict

/-!
# Events that fail

An event fails if it is meaningless or if the message store does not take its message in.
What becomes of the sessions then depends on the order of two steps:

* a key exchange is stored first and committed after that, so a fault of the message store
  comes before the commit;
* a bundle is committed first, and then the message inside is stored. A fault of the
  message store finds the bundle committed, and nothing is taken back.

So the sessions come out as they went in, unless the event has brought a bundle that was
trusted (`Ledger.Survives`). The prekey of that bundle is used up, and the bundle is refused
when it comes again. `Intake.take_failsSafely` says so for any message store.
-/

namespace SecureInbox

variable {μ : Type}

namespace Ledger

/-- The message brings a bundle that the ledger trusts. -/
structure Accepts (l : Ledger) (m : Message) (x : PreKeyBundle) : Prop where
  kind : m.kind = .preKeyBundle
  decoded : PreKeyBundle.decode m.body = .ok x
  trusted : l.judge m.sender (.bundle x) = .trusted

/-- How a ledger comes out of a failure to store a message: as it was, or with the trusted
    bundle in the message committed. -/
inductive Survives (l : Ledger) (m : Message) : Ledger → Prop
  | spared : (∀ x, ¬l.Accepts m x) → Survives l m l
  | spent {x : PreKeyBundle} : l.Accepts m x → Survives l m (l.after (.bundle m.sender x))

variable {l l' : Ledger} {m : Message} {x : PreKeyBundle}

theorem Survives.eq_self (h : l.Survives m l') (hm : ∀ x, ¬l.Accepts m x) : l' = l := by
  cases h with
  | spared => rfl
  | spent hx => exact absurd hx (hm _)

theorem Survives.eq_after (h : l.Survives m l') (hx : l.Accepts m x) :
    l' = l.after (.bundle m.sender x) := by
  cases h with
  | spared hm => exact absurd hx (hm x)
  | spent hx' =>
    cases hx.decoded.symm.trans hx'.decoded
    rfl

end Ledger

section

variable {p : Parties μ Ledger} {d d' : Desk μ Ledger} {policy : Policy}
  {secret : Option MasterSecret} {m : Message} {x : PreKeyBundle} {asked acts : List Act}

/-- The commit of a trusted bundle succeeds, whatever comes of the message inside. -/
theorem TrustsBundle.commits {answer : Except KeyError Unit} (hp : p.sessions = Ledger.store)
    (h : TrustsBundle m x asked) (hacts : ∀ act ∈ acts, act.isSession = false)
    (hall : p.DoesAll d (asked ++ .committed (.bundle m.sender x) answer :: acts) d') :
    d.sessions.Accepts m x ∧ answer = .ok () ∧
      d'.sessions = d.sessions.after (.bundle m.sender x) := by
  have hearns : Earns {} none m (.bundle m.sender x) asked := .bundle h
  obtain ⟨htrusts, hanswer, hsessions⟩ :=
    hearns.commits hp (List.forall_mem_nil _) hacts (by simpa using hall)
  exact ⟨⟨h.kind, h.decoded, (Ledger.judge_eq_trusted ⟨0⟩).2 htrusts⟩, hanswer, hsessions⟩

theorem Routes.survives {result : Except StorageError Outcome} {cause : StorageError}
    (hp : p.sessions = Ledger.store) (h : Routes policy secret m acts result)
    (herror : result = .error cause) (hacts : p.DoesAll d acts d') :
    d.sessions.Survives m d'.sessions := by
  cases h with
  | ciphertext hkind hstored =>
    rw [hacts.sessions_eq hstored.not_session]
    exact .spared fun x hx => nomatch hkind.symm.trans hx.kind
  | setAside haside hstored =>
    obtain ⟨d₁, hasked, hrest⟩ := hacts.of_append
    rw [hrest.sessions_eq hstored.not_session,
      hasked.ledger_eq hp (not_commit_of_questions haside.questions)]
    exact .spared fun x hx =>
      (haside.judge_ne hp hasked (.bundle hx.kind hx.decoded)).1 hx.trusted
  | exchangeRefused htrust hstored =>
    -- The exchange is trusted, but it was to be stored before the commit.
    obtain ⟨d₁, hasked, hrest⟩ := hacts.of_append
    rw [hrest.sessions_eq hstored.not_session,
      hasked.ledger_eq hp (not_commit_of_questions htrust.judged.questions)]
    exact .spared fun x hx => nomatch htrust.answered.kind.symm.trans hx.kind
  | exchangeCommitted | exchangeUncommitted | bundleAccepted => exact nomatch herror
  | bundleUncommitted htrust hstored =>
    -- A ledger does not fail to commit what it trusts.
    obtain ⟨-, hanswer, -⟩ := htrust.commits hp hstored.not_session hacts
    exact nomatch hanswer
  | bundleRefused htrust hstored =>
    obtain ⟨haccepts, -, hsessions⟩ := htrust.commits hp hstored.not_session hacts
    exact hsessions ▸ .spent haccepts

/-- A message that could not be delivered was refused by the message store. -/
theorem Delivers.survives {error : IngestError} (hp : p.sessions = Ledger.store)
    (h : Delivers policy secret m acts (.error error)) (hacts : p.DoesAll d acts d') :
    (∃ cause, error = .storage cause) ∧ d.sessions.Survives m d'.sessions := by
  cases h with
  | refused hroutes => exact ⟨⟨_, rfl⟩, hroutes.survives hp rfl hacts⟩

end

namespace Intake

variable {intake : Intake μ Ledger} {e : Event} {r : Receiver μ Ledger} {error : IngestError}

/-- The event makes a message whole that brings a bundle, and the ledger trusts it. -/
def Accepts (intake : Intake μ Ledger) (e : Event) (r : Receiver μ Ledger) (m : Message)
    (x : PreKeyBundle) : Prop :=
  e.message? intake.limits r.buffer = some m ∧ r.desk.sessions.Accepts m x

/-- What an event leaves of the sessions although it failed with `error`. Unless it has
    brought a trusted bundle, they are as before, and so are all verdicts. A trusted
    bundle is committed and nothing else happens to the sessions; the message store has
    refused the message inside, and the bundle is refused from now on. -/
structure FailsSafely (intake : Intake μ Ledger) (e : Event) (r : Receiver μ Ledger)
    (error : IngestError) : Prop where
  spared : (∀ m x, ¬intake.Accepts e r m x) →
    (intake.take e r).2.desk.sessions = r.desk.sessions ∧ ∀ sender k,
      (intake.take e r).2.desk.sessions.judge sender k = r.desk.sessions.judge sender k
  spent : ∀ {m x}, intake.Accepts e r m x →
    (intake.take e r).2.desk.sessions = r.desk.sessions.after (.bundle m.sender x) ∧
      (intake.take e r).2.desk.sessions.judge m.sender (.bundle x) = .invalid .stalePreKey ∧
        ∃ cause, error = .storage cause

theorem take_survives (hp : intake.parties.sessions = Ledger.store)
    (h : (intake.take e r).1 = .error error) :
    (e.message? intake.limits r.buffer = none ∧
        (intake.take e r).2.desk.sessions = r.desk.sessions) ∨
      ∃ m, e.message? intake.limits r.buffer = some m ∧ (∃ cause, error = .storage cause) ∧
        r.desk.sessions.Survives m (intake.take e r).2.desk.sessions := by
  rcases intake.take_whole e r with ⟨hnone, hdesk⟩ | ⟨m, hwhole, hacts, hdelivers⟩
  · exact .inl ⟨hnone, hdesk ▸ rfl⟩
  · rw [h] at hdelivers
    exact .inr ⟨m, hwhole, hdelivers.survives hp hacts⟩

/-- Whatever state the receiver and the stores are in and however the message store fails,
    an event that fails leaves the sessions alone, except that a trusted bundle in it is
    committed. -/
theorem take_failsSafely (messages : MessageStore μ) (limits : Limits) (policy : Policy)
    (e : Event) (r : Receiver μ Ledger) (error : IngestError)
    (h : ((overLedger messages limits policy).take e r).1 = .error error) :
    (overLedger messages limits policy).FailsSafely e r error := by
  constructor
  case spared =>
    intro hm
    have hsessions : ((overLedger messages limits policy).take e r).2.desk.sessions =
        r.desk.sessions := by
      rcases take_survives rfl h with ⟨-, hsessions⟩ | ⟨m, hwhole, -, hsurvives⟩
      · exact hsessions
      · exact hsurvives.eq_self fun x hx => hm m x ⟨hwhole, hx⟩
    exact ⟨hsessions, fun sender k => by rw [hsessions]⟩
  case spent =>
    rintro m x ⟨hwhole, hx⟩
    -- The event makes one message whole, so the one that failed is the one with the bundle.
    rcases take_survives rfl h with ⟨hnone, -⟩ | ⟨m', hwhole', hcause, hsurvives⟩
    · exact nomatch hwhole.symm.trans hnone
    · cases hwhole.symm.trans hwhole'
      rw [hsurvives.eq_after hx]
      exact ⟨rfl, Ledger.judge_after_bundle _ _ _ x, hcause⟩

end Intake

/-- An event with a bundle from bob in one fragment. -/
def Event.bearing (x : PreKeyBundle) : Event where
  time := 1
  secret := none
  fragments := [{ sender := "bob", body := x.encode, timestamp := 0 }]
  declared := .tag (some .preKeyBundle)

/-- A receiver with one prekey, for a message store that counts the attempts. -/
def Receiver.withPrekey : Receiver Nat Ledger where
  desk := { messages := 0, sessions := { prekeys := [1] } }

namespace Intake

/-- The message store refuses the message in a trusted bundle. -/
theorem take_failsSafely_refusing :
    ((overLedger .refusing {} {}).take (.bearing (.repeating 1 3)) .withPrekey).1 =
        .error (.storage (.insertFailed "mock store rejects inserts")) ∧
      (overLedger .refusing {} {}).FailsSafely (.bearing (.repeating 1 3)) .withPrekey
        (.storage (.insertFailed "mock store rejects inserts")) := by
  have herror : ((overLedger .refusing {} {}).take (.bearing (.repeating 1 3)) .withPrekey).1 =
      .error (.storage (.insertFailed "mock store rejects inserts")) := by decide +kernel
  exact ⟨herror, take_failsSafely _ _ _ _ _ _ herror⟩

/-- Such an event fails and still changes the sessions: the bundle was trusted, and when it
    comes again it is refused. -/
theorem take_refusing_spends :
    let after := (overLedger .refusing {} {}).take (.bearing (.repeating 1 3)) .withPrekey
    after.1 = .error (.storage (.insertFailed "mock store rejects inserts")) ∧
      after.2.desk.sessions ≠ Receiver.withPrekey.desk.sessions ∧
        Receiver.withPrekey.desk.sessions.judge "bob" (.bundle (.repeating 1 3)) = .trusted ∧
          after.2.desk.sessions.judge "bob" (.bundle (.repeating 1 3)) =
            .invalid .stalePreKey := by
  decide +kernel

end Intake

end SecureInbox
