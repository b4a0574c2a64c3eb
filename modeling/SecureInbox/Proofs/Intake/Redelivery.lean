import SecureInbox.Mailbox.Faulty
import SecureInbox.Proofs.Intake.Assembly
import SecureInbox.Proofs.Intake.Split

/-!
# Delivering an event again

An event that failed may be delivered again when the message store works. That helps if the
buffer still has what the event needs:

* an event that brings no part leaves the buffer alone, so it comes to the same when it is
  delivered again (`Intake.take_again`);
* an event that brings the last part of a message (`Event.Completes`) takes the partial out
  of the buffer before the message is stored, and the partial is not put back. Delivered
  again, the event only opens a new one (`Event.Completes.take_again`).

These are the only events that can fail, and no partial is lost by them but the one that was
completed and those that were too old (`Intake.take_keepsParts`).
-/

namespace SecureInbox

variable {μ σ : Type}

namespace Event

variable {e : Event} {limits : Limits} {buffer : Buffer} {m : Message} {p : Part} {q : Partial}

/-- The event brings `p`, the part that `q` in the buffer was still waiting for. -/
structure Completes (e : Event) (limits : Limits) (buffer : Buffer) (m : Message) (p : Part)
    (q : Partial) : Prop where
  offered : e.offered? = some m
  part : m.part? = some p
  found : (buffer.expire limits e.time).find? m.sender p.identifier = some q
  accepts : q.accepts p = true
  complete : (q.fill m p).isComplete = true

namespace Completes

theorem key_eq (h : e.Completes limits buffer m p q) :
    m.sender = q.sender ∧ p.identifier = q.identifier :=
  let ⟨hsender, hidentifier⟩ := Partial.isFor_iff.1 (Buffer.isFor_of_find? h.found)
  ⟨hsender.symm, hidentifier.symm⟩

/-- The whole message leaves the buffer, and its partial with it. -/
theorem assembled_eq (h : e.Completes limits buffer m p q) :
    e.assembled limits buffer =
      (.ok (.ready (q.fill m p).toMessage .sniffed), buffer.besides limits e.time m p) := by
  rw [assembled_of_offered? h.offered, Buffer.offer_joined h.part h.found h.accepts,
    Buffer.settle_complete h.complete]
  rfl

theorem isFree_besides (h : e.Completes limits buffer m p q) (now : Nat) :
    (buffer.besides limits now m p).IsFree q.sender q.identifier := by
  rw [← h.key_eq.1, ← h.key_eq.2]
  exact Buffer.isFree_others

/-- Where its partial is missing, the event opens a new one. -/
theorem take_again (h : e.Completes limits buffer m p q) (intake : Intake μ σ)
    (r : Receiver μ σ) (hfree : r.buffer.IsFree q.sender q.identifier) (now : Nat) :
    (intake.take (e.again now) r).1 = .ok (.awaitingParts q.identifier 1 q.slots.length) ∧
      (intake.take (e.again now) r).2.desk = r.desk := by
  obtain ⟨hsender, hidentifier⟩ := h.key_eq
  have hslots : q.slots.length = p.count.toNat := by
    have haccepts := h.accepts
    simp only [Partial.accepts, Bool.and_eq_true, beq_iff_eq] at haccepts
    exact haccepts.1.1
  rw [← hsender, ← hidentifier] at hfree
  have hanswer := Buffer.offer_free intake.limits now h.part hfree
  have hoffered : (e.again now).offered? = some m := h.offered
  rw [Intake.take_eq_assembled, assembled_of_offered? hoffered]
  dsimp only [again]
  rw [hanswer, hslots, ← hidentifier]
  exact ⟨rfl, rfl⟩

end Completes

end Event

namespace Intake

/-- The intake over other stores. -/
def withParties (intake : Intake μ σ) (parties : Parties μ σ) : Intake μ σ :=
  { intake with parties }

variable {intake : Intake μ σ} {e : Event} {r : Receiver μ σ} {error : IngestError}

theorem buffer_take (e : Event) (r : Receiver μ σ) :
    (intake.take e r).2.buffer = (e.assembled intake.limits r.buffer).2 := by
  rw [take_eq_assembled]
  rcases e.assembled intake.limits r.buffer with ⟨_ | (_ | _), buffer⟩ <;> rfl

/-- An event that brings no part leaves the buffer alone. -/
theorem buffer_take_of_key? (h : e.key? = none) : (intake.take e r).2.buffer = r.buffer := by
  obtain ⟨assembled, hagain⟩ := Event.assembled_again h intake.limits
  exact (intake.buffer_take e r).trans (congrArg Prod.snd (hagain e.time r.buffer))

/-- An event that brings no part comes to the same at any time. -/
theorem take_again (h : e.key? = none) (now : Nat) (r : Receiver μ σ) :
    intake.take (e.again now) r = intake.take e r := by
  obtain ⟨assembled, hagain⟩ := Event.assembled_again h intake.limits
  have hfirst : e.assembled intake.limits r.buffer = (assembled, r.buffer) := hagain e.time r.buffer
  rw [take_eq_assembled, take_eq_assembled, hagain, hfirst]
  rfl

/-- An event that fails brings no part or the last one of a message. -/
theorem exists_completes_of_error (h : (intake.take e r).1 = .error error) :
    e.key? = none ∨ ∃ m p q, e.Completes intake.limits r.buffer m p q := by
  cases hoffered : e.offered? with
  | none => exact .inl (by rw [Event.key?, hoffered, Option.bind_none])
  | some m =>
    rw [take_eq_assembled, Event.assembled_of_offered? hoffered] at h
    generalize hanswer : r.buffer.offer intake.limits e.time m = out at h
    obtain ⟨answer, buffer⟩ := out
    cases Buffer.offer_answers hanswer with
    | passed hpart =>
      left
      rw [Event.key?, hoffered, Option.bind_some, Message.key?, hpart, Option.map_none]
    | opened | joined => cases h
    | released hpart hfound haccepts hcomplete =>
      exact .inr ⟨_, _, _, hoffered, hpart, hfound, haccepts, hcomplete⟩

/-- What an event leaves of the buffer although it failed with `error`. Every partial that is
    young enough stays as it is, unless the event has brought the last part for it. If it has
    done so for none, it comes to the same when it is delivered again, at any time and over
    any stores. Otherwise it was the message store that failed, the partial is gone, and the
    event delivered again is the first part of another one. -/
structure KeepsParts (intake : Intake μ σ) (e : Event) (r : Receiver μ σ)
    (error : IngestError) : Prop where
  kept : ∀ q ∈ r.buffer, q.isAlive intake.limits e.time = true →
    (∀ m p q', e.Completes intake.limits r.buffer m p q' → q.key ≠ q'.key) →
      q ∈ (intake.take e r).2.buffer
  spared : (∀ m p q, ¬e.Completes intake.limits r.buffer m p q) →
    (intake.take e r).2.buffer = r.buffer ∧ ∀ parties d now,
      (intake.withParties parties).take (e.again now)
          { buffer := (intake.take e r).2.buffer, desk := d } =
        (intake.withParties parties).take e { buffer := r.buffer, desk := d }
  spent : ∀ {m p q}, e.Completes intake.limits r.buffer m p q →
    (∃ cause, error = .storage cause) ∧
      (intake.take e r).2.buffer.IsFree q.sender q.identifier ∧ ∀ parties d now,
        let again := (intake.withParties parties).take (e.again now)
          { buffer := (intake.take e r).2.buffer, desk := d }
        again.1 = .ok (.awaitingParts q.identifier 1 q.slots.length) ∧ again.2.desk = d

/-- Whatever state the receiver is in and however the stores fail, an event that fails loses
    no partial but the one that it completes. -/
theorem take_keepsParts (intake : Intake μ σ) (e : Event) (r : Receiver μ σ)
    (error : IngestError) (h : (intake.take e r).1 = .error error) :
    intake.KeepsParts e r error := by
  have hreleased : ∀ {m p q}, e.Completes intake.limits r.buffer m p q →
      (intake.take e r).2.buffer = r.buffer.besides intake.limits e.time m p := fun hcompletes =>
    (intake.buffer_take e r).trans (congrArg Prod.snd hcompletes.assembled_eq)
  constructor
  case kept =>
    intro q hq halive hother
    obtain hkey | ⟨m, p, q', hcompletes⟩ := exists_completes_of_error h
    · rwa [buffer_take_of_key? hkey]
    · rw [hreleased hcompletes]
      obtain ⟨hsender, hidentifier⟩ := hcompletes.key_eq
      refine Buffer.mem_besides hq halive ?_
      rw [hsender, hidentifier]
      exact hother m p q' hcompletes
  case spared =>
    intro hnone
    obtain hkey | ⟨m, p, q, hcompletes⟩ := exists_completes_of_error h
    · refine ⟨buffer_take_of_key? hkey, fun parties d now => ?_⟩
      rw [take_again hkey, buffer_take_of_key? hkey]
    · exact absurd hcompletes (hnone m p q)
  case spent =>
    intro m p q hcompletes
    have hfree : (intake.take e r).2.buffer.IsFree q.sender q.identifier := by
      rw [hreleased hcompletes]
      exact hcompletes.isFree_besides e.time
    refine ⟨?_, hfree, fun parties d now => ?_⟩
    · simp only [take_eq_assembled, hcompletes.assembled_eq] at h
      obtain ⟨acts, -, hdelivers⟩ := intake.deliver_performs e.secret
        ((q.fill m p).toMessage.classify .sniffed) r.desk
      rw [h] at hdelivers
      cases hdelivers with
      | refused => exact ⟨_, rfl⟩
    · exact hcompletes.take_again (intake.withParties parties)
        { buffer := (intake.take e r).2.buffer, desk := d } hfree now

end Intake

/-! ## A store that is out of order for a while -/

/-- One half of a ciphertext from alice. -/
def Event.half (index b : UInt8) (now : Nat) : Event :=
  .single now none "alice" (Part.half index b).encode 0

/-- A mailbox that can be out of order. -/
def Intake.interruptible : Intake (Option StorageError × Mailbox) Ledger where
  parties := { messages := .interruptible Mailbox.store, sessions := Ledger.store }

/-- The desk with an empty mailbox, which is out of order for the cause given. -/
def Desk.interrupted (cause : Option StorageError) :
    Desk (Option StorageError × Mailbox) Ledger where
  messages := (cause, {})
  sessions := {}

/-- The receiver that has got the first half. -/
def Receiver.halfway : Receiver (Option StorageError × Mailbox) Ledger :=
  Intake.interruptible.run [.half 0 10 1]
    { desk := .interrupted (some (.insertFailed "disk full")) }

namespace Intake

/-- The mailbox is out of order when the second half comes. -/
theorem take_keepsParts_halfway :
    (interruptible.take (.half 1 11 2) .halfway).1 =
        .error (.storage (.insertFailed "disk full")) ∧
      interruptible.KeepsParts (.half 1 11 2) .halfway (.storage (.insertFailed "disk full")) := by
  have herror : (interruptible.take (.half 1 11 2) .halfway).1 =
      .error (.storage (.insertFailed "disk full")) := by decide +kernel
  exact ⟨herror, take_keepsParts _ _ _ _ herror⟩

/-- The first half is lost then, although it was young enough: when the second half comes
    again and the mailbox works, the first one is missing. At once the message would have
    been stored. -/
theorem take_halfway_loses :
    let failed := interruptible.take (.half 1 11 2) .halfway
    let repaired := fun buffer => interruptible.take ((Event.half 1 11 2).again 3)
      { buffer, desk := .interrupted none }
    failed.1 = .error (.storage (.insertFailed "disk full")) ∧
      (∃ q ∈ Receiver.halfway.buffer, q.isAlive interruptible.limits 2 = true ∧
        q ∉ failed.2.buffer) ∧
        (repaired failed.2.buffer).1 = .ok (.awaitingParts 7 1 2) ∧
          (repaired Receiver.halfway.buffer).1 = .ok (.stored
            { identity := { message := ⟨1⟩, thread := ⟨1⟩ }
              kind := .secureCiphertext
              path := .secure
              flags := .empty }) := by
  decide +kernel

end Intake

end SecureInbox
