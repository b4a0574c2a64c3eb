import SecureInbox.Proofs.Intake.Agreement
import SecureInbox.Proofs.Intake.Failure
import SecureInbox.Proofs.Key.Bundle

/-!
# Bundles that are unwrapped

A bundle that is accepted is replaced by the message inside it. What is stored then is
the body made for that message, so nothing that came after the fields of the bundle is
lost on the way into the mailbox (`Intake.Accepts.storesInner`). Together with what is
read as a bundle at all, this is `PreKeyBundle.isUnwrappedWhole`.
-/

namespace SecureInbox

/-- To commit a bundle and to store the message inside it. -/
def Plan.bundle (secret : Option MasterSecret) (m : Message) (x : PreKeyBundle) : Plan :=
  { Plan.secure secret (m.inner x) with material? := some (.bundle x) }

namespace Ledger

variable {l : Ledger} {m : Message} {x : PreKeyBundle} {policy : Policy}
  {secret : Option MasterSecret}

/-- A bundle that the ledger accepts is committed, and the message inside is stored on
    the secure path. -/
theorem Accepts.plan_eq (h : l.Accepts m x) : l.plan policy secret m = .bundle secret m x := by
  have htrusted : (judgeBundle store.ask m.sender x l).1 = .trusted := h.trusted
  simp only [plan, planBundle, h.kind, h.decoded, htrusted, Plan.bundle]

/-- Nothing else makes a plan commit a bundle. -/
theorem accepts_of_material? (h : (l.plan policy secret m).material? = some (.bundle x)) :
    l.Accepts m x := by
  unfold plan at h
  split at h
  · cases h
  · rename_i hkind
    unfold planBundle at h
    split at h
    · cases h
    · rename_i hdecoded
      split at h
      · rename_i htrusted
        cases h
        exact ⟨hkind, hdecoded, htrusted⟩
      · cases h
  · unfold planExchange at h
    split at h
    · split at h
      · cases h
      · split at h <;> cases h
    · cases h
  · cases h

end Ledger

namespace Intake

variable {limits : Limits} {policy : Policy} {e : Event} {r : Receiver Mailbox Ledger}
  {m : Message} {x : PreKeyBundle}

/-- What an accepted bundle, which came with `m`, leaves in the mailbox: one record, with
    all there was after the fields of the bundle. -/
structure StoresInner (m : Message) (x : PreKeyBundle) (result : Except IngestError Ingested)
    (record : StoredRecord) : Prop where
  result_eq : ∃ outcome, result = .ok (.stored outcome) ∧ outcome.identity = record.identity ∧
    outcome.path = .secure
  sender : record.sender = m.sender
  kind : record.kind = .secureCiphertext
  opensAs : ∃ payload, Wire.decodePayload m.body = .ok payload ∧
    PreKeyBundle.OpensAs record.body x.version (payload.drop 75)

theorem Accepts.storesInner (h : (inMemory limits policy).Accepts e r m x) :
    ∃ record, ((inMemory limits policy).take e r).2.desk.messages.records =
        r.desk.messages.records ++ [record] ∧
      StoresInner m x ((inMemory limits policy).take e r).1 record := by
  have hwhole : e.message? limits r.buffer = some m := h.1
  have haccepts := h.2
  obtain ⟨payload, hpayload, -, hin⟩ := PreKeyBundle.decode_eq_ok_iff.1 haccepts.decoded
  have hreadable := PreKeyBundle.isReadable_of_decode haccepts.decoded
  obtain ⟨identity, acts, d, hcarries, hresult, hdesk⟩ := take_of_message? hwhole
  rw [haccepts.plan_eq] at hcarries hresult
  refine ⟨(Plan.bundle e.secret m x).record identity, ?_, ⟨_, hresult, rfl, rfl⟩, rfl, rfl, payload,
    hpayload, ?_⟩
  · rw [hdesk, Desk.messages_note, hcarries.messages_eq, Mailbox.records_insert, hcarries.record_eq]
  · rw [← hin.inner]
    exact PreKeyBundle.opensAs_innerBody hreadable.version

end Intake

/-- Bundles are read and written exactly, and what is inside one is kept whole: in the body
    that is made for it, and in the mailbox. -/
structure PreKeyBundle.IsUnwrappedWhole : Prop extends IsDecodedRightly where
  /-- The body that is made for the message inside has the bytes that were inside. -/
  innerBody : ∀ x : PreKeyBundle, (x.version = 1 ∨ x.version = 2) →
    OpensAs x.innerBody x.version x.inner
  /-- So has the record of a bundle that was accepted. -/
  stored : ∀ limits policy e r m x, (Intake.inMemory limits policy).Accepts e r m x →
    ∃ record, ((Intake.inMemory limits policy).take e r).2.desk.messages.records =
        r.desk.messages.records ++ [record] ∧
      Intake.StoresInner m x ((Intake.inMemory limits policy).take e r).1 record

/-- No byte of the message inside a bundle is lost. -/
theorem PreKeyBundle.isUnwrappedWhole : IsUnwrappedWhole where
  toIsDecodedRightly := isDecodedRightly
  innerBody _ := opensAs_innerBody
  stored _ _ _ _ _ _ := Intake.Accepts.storesInner

end SecureInbox
