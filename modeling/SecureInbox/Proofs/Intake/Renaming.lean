import Mathlib.Logic.Equiv.Fintype
import SecureInbox.Intake.Receiver
import SecureInbox.Proofs.Mailbox.Memory
import SecureInbox.Session.Ledger

/-!
# Renaming

The numbers of messages and threads tell how many of them there are in a mailbox, those
of other senders included. A *renaming* calls messages and threads something else, no
two of them the same. Whatever mentions them is renamed with them: results, records,
jobs, notifications and sessions.

The messages of a sender in one mailbox can be renamed to as many messages of that
sender in another (`Mailbox.exists_renaming`).
-/

namespace SecureInbox

/-- Other names for messages and threads. -/
structure Renaming where
  message : Equiv.Perm MessageId
  thread : Equiv.Perm ThreadId

namespace Renaming

variable (ρ : Renaming)

def identity (i : StoredIdentity) : StoredIdentity where
  message := ρ.message i.message
  thread := ρ.thread i.thread

def outcome (o : Outcome) : Outcome := { o with identity := ρ.identity o.identity }

/-- Without a message that was stored there is nothing to rename. -/
def ingested : Ingested → Ingested
  | .stored o => .stored (ρ.outcome o)
  | .awaitingParts identifier received expected => .awaitingParts identifier received expected

def result : Except IngestError Ingested → Except IngestError Ingested := Except.map ρ.ingested

def record (r : StoredRecord) : StoredRecord := { r with identity := ρ.identity r.identity }

def job (j : DecryptionJob) : DecryptionJob := { j with identity := ρ.identity j.identity }

def notice : Notice → Notice
  | .messageReceived thread unlocked => .messageReceived (ρ.thread thread) unlocked
  | .securityUpdated thread => .securityUpdated (ρ.thread thread)

/-- Of a session only the thread of the last key exchange is renamed. -/
def session (s : Session) : Session := { s with thread := s.thread.map ρ.thread }

/-- Under other names, the messages of a sender in one mailbox are called what they are
    called in another. -/
def Relates (sender : String) (box box' : Mailbox) : Prop :=
  (box.identitiesOf sender).map ρ.identity = box'.identitiesOf sender

/-- A renaming that relates the messages of a sender after one more was stored in each
    mailbox related them before, and takes the new message to the new message. -/
theorem Relates.of_concat {ρ : Renaming} {sender : String} {box box' next next' : Mailbox}
    {i i' : StoredIdentity} (h : ρ.Relates sender next next')
    (hnext : next.identitiesOf sender = box.identitiesOf sender ++ [i])
    (hnext' : next'.identitiesOf sender = box'.identitiesOf sender ++ [i'])
    (hlength : (box.identitiesOf sender).length = (box'.identitiesOf sender).length) :
    ρ.Relates sender box box' ∧ ρ.identity i = i' := by
  rw [Relates, hnext, hnext', List.map_append] at h
  obtain ⟨hbefore, hnew⟩ := List.append_inj h (by rw [List.length_map, hlength])
  exact ⟨hbefore, (List.cons.inj hnew).1⟩

end Renaming

/-- A permutation takes one list without repetitions to another of the same length. -/
theorem exists_perm_map_eq {α : Type} {l l' : List α} (h : l.Nodup) (h' : l'.Nodup)
    (hlength : l.length = l'.length) : ∃ σ : Equiv.Perm α, l.map σ = l' := by
  obtain ⟨σ, hσ⟩ := Equiv.Perm.exists_extending_pair l.get (l'.get ∘ Fin.cast hlength)
    h.injective_get (h'.injective_get.comp (Fin.cast_injective hlength))
  refine ⟨σ, List.ext_getElem (by simpa using hlength) fun k hk hk' => ?_⟩
  rw [List.getElem_map]
  exact hσ ⟨k, hlength ▸ hk'⟩

/-- As many messages of a sender in two mailboxes differ in their names only. -/
theorem Mailbox.exists_renaming {box box' : Mailbox} {sender : String} (h : box.IsNumbered)
    (h' : box'.IsNumbered)
    (hlength : (box.identitiesOf sender).length = (box'.identitiesOf sender).length) :
    ∃ ρ : Renaming, ρ.Relates sender box box' := by
  obtain ⟨message, hmessage⟩ := exists_perm_map_eq (h.nodup_identitiesOf sender)
    (h'.nodup_identitiesOf sender) (by simpa using hlength)
  -- All messages of the sender are in one thread, here and there.
  let thread (box : Mailbox) : ThreadId := (box.threadOf? sender).getD ⟨0⟩
  have hthread : ∀ {box : Mailbox}, box.IsNumbered → ∀ i ∈ box.identitiesOf sender,
      i.thread = thread box := fun h i hi => by
    simp only [thread, h.thread_eq hi, Option.getD_some]
  refine ⟨{ message, thread := Equiv.swap (thread box) (thread box') },
    List.ext_getElem (by simpa using hlength) fun k hk hk' => ?_⟩
  have hk₀ : k < (box.identitiesOf sender).length := hlength ▸ hk'
  have hmessage := List.getElem_of_eq hmessage (by simpa using hk₀)
  have hnew := hthread h' _ (List.getElem_mem hk')
  have hold := hthread h _ (List.getElem_mem hk₀)
  rw [List.getElem_map]
  simp only [List.getElem_map] at hmessage
  rw [Renaming.identity, hmessage, hold, Equiv.swap_apply_left, ← hnew]

end SecureInbox
