import SecureInbox.Proofs.Intake.Event
import SecureInbox.Proofs.Key.Material
import SecureInbox.Proofs.Part.Collect

/-!
# Whole messages

However a message got whole, it comes from the sender of the first fragment of its
event (`Event.sender_message?`), and no key material was looked at yet: it has no
flag, unless it is a part that cannot be read (`Event.isFresh_message?`). Such a
part carries no payload, so a message with key material has none at all
(`Message.IsFresh.flags_of_bundle`).
-/

namespace SecureInbox

/-- The message has no flag, or it is a part that cannot be read and is marked as
    corrupted. -/
def Message.IsFresh (m : Message) : Prop :=
  m.flags = .empty ∨
    (m.flags = Flags.empty.insert .corrupted ∧ ∃ part, Wire.splitPart? m.body = some part)

/-- What cannot be read as a part has the marker of one, unless it is no part. -/
theorem Part.exists_splitPart?_of_parse {body : String} {cause : PartError}
    (h : parse body = .error cause) (hcause : cause ≠ .notAPart) :
    ∃ part, Wire.splitPart? body = some part := by
  cases hsplit : Wire.splitPart? body with
  | none =>
    rw [parse, hsplit] at h
    exact absurd (Except.error.inj h).symm hcause
  | some part => exact ⟨part, rfl⟩

/-- What has the marker of a part is not taken for anything else. -/
theorem Part.parse_ne_notAPart {body : String} {part : Kind × String × List Char}
    (h : Wire.splitPart? body = some part) : parse body ≠ .error .notAPart := by
  obtain ⟨kind, lead, text⟩ := part
  rw [parse, h]
  dsimp only
  cases Wire.decodePart text with
  | error => simp
  | ok envelope =>
    dsimp only
    unfold ofEnvelope
    split
    · dsimp only
      split <;> simp
    · simp

namespace Message

variable {m : Message}

theorem isFresh_passing (hm : m.flags = .empty) : m.passing.IsFresh := by
  unfold passing
  split
  · exact .inl hm
  · rename_i cause hcause hparse
    refine .inr ⟨congrArg (Flags.insert · .corrupted) hm, ?_⟩
    exact Part.exists_splitPart?_of_parse hparse fun h => hcause (h ▸ rfl)
  · exact .inl rfl

namespace IsFresh

theorem classify (h : m.IsFresh) (source : KindSource) : (m.classify source).IsFresh := h

/-- No message is processed before it is routed. -/
theorem processed_eq_false (h : m.IsFresh) : m.flags.contains .processed = false := by
  obtain h | ⟨h, -⟩ := h <;> rw [h] <;> rfl

/-- A message that is no part has no flag. -/
theorem flags_of_splitPart? (h : m.IsFresh) (hpart : Wire.splitPart? m.body = none) :
    m.flags = .empty := by
  obtain h | ⟨-, part, hsplit⟩ := h
  · exact h
  · exact nomatch hpart.symm.trans hsplit

/-- A bundle that can be read has no flag. -/
theorem flags_of_bundle (h : m.IsFresh) {x : PreKeyBundle}
    (hx : PreKeyBundle.decode m.body = .ok x) : m.flags = .empty :=
  h.flags_of_splitPart? (PreKeyBundle.splitPart?_of_decode hx)

/-- A key exchange that can be read has no flag. -/
theorem flags_of_exchange (h : m.IsFresh) {x : KeyExchange}
    (hx : KeyExchange.decode m.body = .ok x) : m.flags = .empty :=
  h.flags_of_splitPart? (KeyExchange.splitPart?_of_decode hx)

end IsFresh

end Message

namespace Buffer

variable {limits : Limits} {now : Nat} {m whole : Message} {buffer buffer' : Buffer}

/-- What the buffer gives back comes from the sender and is fresh. -/
theorem offer_complete (hm : m.flags = .empty)
    (h : buffer.offer limits now m = (.complete whole, buffer')) :
    whole.sender = m.sender ∧ whole.IsFresh := by
  cases hpart : m.part? with
  | none =>
    rw [offer_passed limits now hpart] at h
    cases h
    exact ⟨m.sender_passing, Message.isFresh_passing hm⟩
  | some p =>
    generalize hanswer : Release.complete whole = answer at h
    cases offer_answers h with
    | passed hnone => exact nomatch hpart.symm.trans hnone
    | opened | joined => exact nomatch hanswer
    | released _ hfind =>
      cases hanswer
      exact ⟨(Partial.isFor_iff.1 (isFor_of_find? hfind)).1, .inl rfl⟩

theorem assembleJoined_ready {source : KindSource} (hm : m.flags = .empty)
    (h : buffer.assembleJoined limits now m = (.ready whole source, buffer')) :
    whole.sender = m.sender ∧ whole.IsFresh := by
  unfold assembleJoined at h
  split at h
  · split at h
    · rename_i hoffer
      cases h
      exact offer_complete hm hoffer
    · cases h
  · cases h
    exact ⟨rfl, .inl hm⟩

/-- What the fragments of an event make comes from the sender of the first, and is
    fresh. -/
theorem assemble_ready {fragments : List Fragment} {tag : Option Tag} {source : KindSource}
    (h : buffer.assemble limits now fragments tag = (.ok (.ready whole source), buffer')) :
    fragments.head?.map (·.sender) = some whole.sender ∧ whole.IsFresh := by
  unfold assemble at h
  split at h
  · exact nomatch h
  · cases h
    exact ⟨rfl, .inl rfl⟩
  · rename_i f rest _
    dsimp only at h
    rcases hjoined : buffer.assembleJoined limits now (Message.join f (f :: rest)) with
      ⟨assembled, buffer''⟩
    rw [hjoined] at h
    cases h
    obtain ⟨hsender, hfresh⟩ := assembleJoined_ready rfl hjoined
    exact ⟨congrArg some hsender.symm, hfresh⟩

end Buffer

namespace Event

/-- Where an event comes from: the sender of its first fragment. -/
def sender? (e : Event) : Option String := e.fragments.head?.map (·.sender)

variable {e : Event} {limits : Limits} {buffer : Buffer} {m : Message}

theorem message?_eq_some (h : e.message? limits buffer = some m) :
    e.sender? = some m.sender ∧ m.IsFresh := by
  unfold message? at h
  split at h
  · exact nomatch h
  · split at h
    · rename_i whole source hready
      obtain ⟨hsender, hfresh⟩ := Buffer.assemble_ready (Prod.ext hready rfl)
      cases h
      exact ⟨hsender, hfresh.classify source⟩
    · exact nomatch h

/-- A message that gets whole comes from the sender of the event. -/
theorem sender_message? (h : e.message? limits buffer = some m) : e.sender? = some m.sender :=
  (message?_eq_some h).1

/-- A message that gets whole is fresh. -/
theorem isFresh_message? (h : e.message? limits buffer = some m) : m.IsFresh :=
  (message?_eq_some h).2

end Event

end SecureInbox
