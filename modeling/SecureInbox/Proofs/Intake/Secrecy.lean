import SecureInbox.Proofs.Intake.Event
import SecureInbox.Proofs.Mailbox.Memory
import SecureInbox.Session.Ledger

/-!
# Which secret a message meets

A message is stored under one secret at most, and which one that is depends on its kind and
on the secrets at hand (`placeFor_cases`). Ciphertext is kept as it came, under the live
secret if there is one; everything else goes under the live secret, else under the fallback
secret, and is in the plaintext inbox only where there is neither. Only for ciphertext under
a live secret a job is scheduled, which hands that secret to the decryption worker.

Three places have to agree on this: the inbox of the record, the path that is reported and
the job. They do, whatever way the message took and whatever the session store answered
(`Intake.take_keepsSecrets`).
-/

namespace SecureInbox

variable {σ : Type} {policy : Policy} {secret : Option MasterSecret} {m : Message}
  {acts : List Act} {outcome : Outcome}

/-! ## Insertions into a mailbox -/

section

variable {p : Parties Mailbox σ} {d d' : Desk Mailbox σ} {placement : Placement}
  {answer : Except StorageError StoredIdentity}

theorem Parties.Does.mailbox_eq {act : Act} (hp : p.messages = Mailbox.store)
    (h : p.Does d act d') (hact : act.insertion? = some (placement, m, answer)) :
    answer = .ok (d.messages.nextIdentity m.sender) ∧
      d'.messages = d.messages.after placement m := by
  cases h with
  | inserted h =>
    cases hact
    rw [Parties.insert, hp] at h
    exact ⟨(Prod.mk.inj h).1.symm, (Prod.mk.inj h).2 ▸ rfl⟩
  | asked | committed | scheduled | notified => exact nomatch hact

/-- A mailbox takes in the message that is inserted and nothing else. -/
theorem Parties.DoesAll.mailbox_eq (hp : p.messages = Mailbox.store) (h : p.DoesAll d acts d')
    (hacts : acts.filterMap Act.insertion? = [(placement, m, answer)]) :
    answer = .ok (d.messages.nextIdentity m.sender) ∧
      d'.messages = d.messages.after placement m := by
  induction h with
  | nil => exact nomatch hacts
  | @cons d d₁ d₂ act acts hact hrest ih =>
    cases hinsertion : act.insertion? with
    | none =>
      rw [List.filterMap_cons_none hinsertion] at hacts
      have hmessages : d₁.messages = d.messages := hact.messages_eq hinsertion
      exact hmessages ▸ ih hacts
    | some insertion =>
      rw [List.filterMap_cons_some hinsertion] at hacts
      obtain ⟨rfl, hnone⟩ := List.cons.inj hacts
      rw [hrest.messages_eq hnone]
      exact hact.mailbox_eq hp hinsertion

end

/-! ## Places -/

/-- The four places that a message may get to. -/
theorem placeFor_cases (policy : Policy) (secret : Option MasterSecret) (kind : Kind) :
    (kind = .secureCiphertext ∧ placeFor policy secret kind = (.encrypted secret, .secure)) ∨
      (kind ≠ .secureCiphertext ∧ ∃ live, secret = some live ∧
        placeFor policy secret kind = (.encrypted (some live), .encrypted .live)) ∨
      (kind ≠ .secureCiphertext ∧ secret = none ∧ ∃ fallback, policy.fallback = some fallback ∧
        placeFor policy secret kind = (.encrypted (some fallback), .encrypted .asymmetric)) ∨
      (kind ≠ .secureCiphertext ∧ secret = none ∧ policy.fallback = none ∧
        placeFor policy secret kind = (.plaintext, .plaintext)) := by
  by_cases hkind : kind = .secureCiphertext
  · exact .inl ⟨hkind, if_pos hkind⟩
  · have hplace : placeFor policy secret kind = Parties.standardPlace policy secret := if_neg hkind
    rw [hplace]
    cases secret with
    | some live => exact .inr (.inl ⟨hkind, live, rfl, rfl⟩)
    | none =>
      rw [Parties.standardPlace]
      cases hfallback : policy.fallback with
      | some fallback => exact .inr (.inr (.inl ⟨hkind, rfl, fallback, rfl, rfl⟩))
      | none => exact .inr (.inr (.inr ⟨hkind, rfl, rfl, rfl⟩))

/-- The record of a stored message, the report on it and the jobs it led to agree on the
    secret that it meets, which is the right one. -/
structure KeepsSecrets (fallback secret : Option MasterSecret) (record : StoredRecord)
    (outcome : Outcome) (jobs : List DecryptionJob) : Prop where
  identity_eq : outcome.identity = record.identity
  kind_eq : outcome.kind = record.kind
  flags_eq : outcome.flags = record.flags
  plaintext_iff : record.inbox = .plaintext ↔
    secret = none ∧ fallback = none ∧ outcome.kind ≠ .secureCiphertext
  path_plaintext_iff : outcome.path = .plaintext ↔ record.inbox = .plaintext
  asymmetric_iff : outcome.path = .encrypted .asymmetric ↔
    secret = none ∧ fallback.isSome ∧ outcome.kind ≠ .secureCiphertext
  asymmetric : outcome.path = .encrypted .asymmetric →
    ∃ s, fallback = some s ∧ record.inbox = .encrypted (some s.fingerprint)
  live_iff : outcome.path = .encrypted .live ↔
    secret.isSome ∧ outcome.kind ≠ .secureCiphertext
  live : outcome.path = .encrypted .live →
    ∃ s, secret = some s ∧ record.inbox = .encrypted (some s.fingerprint)
  secure_iff : outcome.path = .secure ↔ outcome.kind = .secureCiphertext
  secure : outcome.path = .secure → record.inbox = .encrypted (secret.map (·.fingerprint))
  job_iff : jobs ≠ [] ↔ outcome.path = .secure ∧ secret.isSome
  /-- There is one job at most, to decrypt the record under the live secret. -/
  job : ∀ job ∈ jobs, jobs = [job] ∧ secret = some job.secret ∧
    job.identity = record.identity ∧ job.sender = record.sender ∧ job.body = record.body ∧
      job.isSecure = true ∧ job.isKeyExchange = false

/-- What was filed is kept under the right secret. -/
theorem Files.keepsSecrets {box : Mailbox} (h : Files policy secret m acts (.ok outcome))
    (hidentity : outcome.identity = box.nextIdentity m.sender) :
    KeepsSecrets policy.fallback secret (box.nextRecord (placeFor policy secret m.kind).1 m)
      outcome (acts.filterMap Act.job?) := by
  cases h with
  | stored _ hjobs hpath hkind hflags =>
    rw [hjobs, jobsFor]
    -- Each of the four places settles the inbox and the path, and the kind settles the jobs.
    obtain ⟨hcipher, hplace⟩ | ⟨hother, live, rfl, hplace⟩ | ⟨hother, rfl, fallback, hf, hplace⟩ |
      ⟨hother, rfl, hf, hplace⟩ := placeFor_cases policy secret m.kind
    · rw [hplace] at hpath ⊢
      rw [if_pos hcipher]
      constructor <;>
        simp [hpath, hkind, hcipher, hflags, hidentity, Mailbox.nextRecord, Placement.inbox,
          Parties.jobFor, Kind.isSecure, Kind.isKeyExchange, Option.isSome_iff_ne_none]
    all_goals
      rw [hplace] at hpath ⊢
      rw [if_neg hother]
      constructor <;> simp [*, Mailbox.nextRecord, Placement.inbox]

namespace Intake

/-- Receiving into a mailbox. -/
def overMailbox (sessions : SessionStore σ) (limits : Limits) (policy : Policy) :
    Intake Mailbox σ where
  parties := { messages := Mailbox.store, sessions }
  limits
  policy

/-- Whatever state the receiver is in and whatever the session store answers, a message
    that is stored gets one record and no other record changes; the record, the report and
    the jobs agree on the secret it meets. -/
theorem take_keepsSecrets (sessions : SessionStore σ) (limits : Limits) (policy : Policy)
    (e : Event) (r : Receiver Mailbox σ) (outcome : Outcome)
    (h : ((overMailbox sessions limits policy).take e r).1 = .ok (.stored outcome)) :
    ∃ record jobs,
      ((overMailbox sessions limits policy).take e r).2.desk.messages.records =
          r.desk.messages.records ++ [record] ∧
        ((overMailbox sessions limits policy).take e r).2.desk.jobs = r.desk.jobs ++ jobs ∧
          KeepsSecrets policy.fallback e.secret record outcome jobs := by
  generalize hintake : overMailbox sessions limits policy = intake at h ⊢
  have hmessages : intake.parties.messages = Mailbox.store := hintake ▸ rfl
  have hpolicy : intake.policy = policy := hintake ▸ rfl
  obtain ⟨m, -, hacts, hdelivers⟩ := intake.take_stored h
  obtain ⟨before, m', filed, -, -, hfiles, hfiled⟩ := hdelivers.files
  obtain rfl : filed = .ok outcome := by
    cases filed <;> cases hfiled
    rfl
  have hjobs : (intake.take e r).2.desk.jobs =
      r.desk.jobs ++ (intake.entries e r).filterMap Act.job? := by
    rw [Desk.jobs, hacts.journal_eq, List.filterMap_append, Desk.jobs]
  obtain ⟨hidentity, hbox⟩ := hacts.mailbox_eq hmessages hfiles.insertion
  refine ⟨_, _, hbox ▸ Mailbox.records_insert, hjobs, ?_⟩
  exact hpolicy ▸ hfiles.keepsSecrets (Except.ok.inj hidentity)

end Intake

/-- The secret with one byte all over. -/
def MasterSecret.repeating (b : UInt8) : MasterSecret := ⟨.fill 32 b, .fill 32 b⟩

/-- An event with a ciphertext from alice, while a secret is unlocked. -/
def Event.ciphertext (secret : MasterSecret) : Event where
  time := 1
  secret := some secret
  fragments := [{ sender := "alice", body := "?TSMAgo", timestamp := 0 }]

/-- The first ciphertext to be stored. -/
def Outcome.firstCiphertext : Outcome where
  identity := { message := ⟨1⟩, thread := ⟨1⟩ }
  kind := .secureCiphertext
  path := .secure
  flags := .empty

/-- A ciphertext meets the live secret, although there is a fallback. -/
theorem Intake.take_keepsSecrets_ciphertext :
    let intake := overMailbox Ledger.store {} { fallback := some (.repeating 2) }
    let after := intake.take (.ciphertext (.repeating 1))
      { desk := { messages := {}, sessions := {} } }
    after.1 = .ok (.stored .firstCiphertext) ∧ ∃ record jobs,
      after.2.desk.messages.records = [record] ∧ after.2.desk.jobs = jobs ∧
        KeepsSecrets (some (.repeating 2)) (some (.repeating 1)) record .firstCiphertext jobs := by
  intro intake after
  have hstored : after.1 = .ok (.stored .firstCiphertext) := by decide +kernel
  exact ⟨hstored, take_keepsSecrets _ _ _ _ _ _ hstored⟩

end SecureInbox
