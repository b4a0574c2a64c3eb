import SecureInbox.Proofs.Part.Collect
import SecureInbox.Proofs.Part.Header

/-!
# Released messages are final

A message leaves the buffer in one of four ways: it was no part, it was a part that
cannot be read, it was a part all alone, or it completed a partial. However it did, it is
not a part of anything any more, so if it is offered again it leaves as it is, and the
buffer does not change (`Message.IsFinal`).

Its body is of the same kind as the one that was offered. Where parts are joined this
rests on the alphabet of base64: no chunk can make the lead of a key exchange into that of
a bundle, or begin with the marker of a part (`Partial.kindOf_toMessage`,
`Partial.isFinal_toMessage`).

`Buffer.releasesFinally` puts this together for every state of the buffer.
-/

namespace SecureInbox

/-- The message is no part, and whenever it is offered it comes back as it is and leaves
    the buffer as it was. -/
structure Message.IsFinal (limits : Limits) (m : Message) : Prop where
  not_part : ∀ p, Part.parse m.body ≠ .ok p
  offer_eq : ∀ now buffer, Buffer.offer limits now m buffer = (.complete m, buffer)

variable {limits : Limits} {now : Nat} {m whole : Message} {p : Part} {q : Partial}

/-! ## The ways to leave the buffer -/

/-- A part is of the kind that its lead stands for. -/
theorem Part.kindOf_of_parse {body : String} (h : parse body = .ok p) :
    KindSource.sniffed.kindOf body = Wire.kindOfLead p.lead := by
  cases parse_eq_iff.1 h with
  | part hmarked =>
    obtain ⟨⟨kind, hlead⟩, -⟩ := hmarked
    rw [KindSource.kindOf, hlead, Wire.kindOfLead_eq (Wire.mem_leads_of_matchLead? hlead)]
    rfl

namespace Message

/-- What is no part and passes by unchanged does so every time. -/
theorem isFinal_of_error (limits : Limits) {cause : PartError}
    (h : Part.parse m.body = .error cause) (hpassing : m.passing = m) : m.IsFinal limits where
  not_part := by simp [h]
  offer_eq now buffer := by
    have hpart : m.part? = none := by simp [part?, h, Except.toOption]
    rw [Buffer.offer_passed limits now hpart, hpassing]

theorem isFinal_of_notAPart (limits : Limits) (h : Part.parse m.body = .error .notAPart) :
    m.IsFinal limits :=
  isFinal_of_error limits h (by rw [passing, h])

/-- A part that cannot be read is marked, and the mark is there already when it comes
    again. -/
theorem isFinal_withFlag (limits : Limits) {cause : PartError}
    (h : Part.parse m.body = .error cause) : (m.withFlag .corrupted).IsFinal limits := by
  have hbody : (m.withFlag .corrupted).body = m.body := rfl
  refine isFinal_of_error limits (hbody ▸ h) ?_
  rw [passing, hbody, h]
  cases cause <;> rfl

/-- A body that was put together is no part. -/
theorem isFinal_plain (limits : Limits) (sender : String) (kind : Kind) (payload : Bytes)
    (timestamp : UInt64) :
    (plain sender (Wire.encodeBody kind payload) timestamp).IsFinal limits :=
  isFinal_of_notAPart limits (Part.parse_encodeBody kind payload)

theorem isFinal_passing (limits : Limits) (m : Message) : m.passing.IsFinal limits := by
  unfold passing
  split
  · rename_i hparse
    exact isFinal_of_notAPart limits hparse
  · rename_i hparse
    exact isFinal_withFlag limits hparse
  · exact isFinal_plain limits _ _ _ _

theorem kindOf_passing (m : Message) :
    KindSource.sniffed.kindOf m.passing.body = KindSource.sniffed.kindOf m.body := by
  unfold passing
  split
  · rfl
  · rfl
  · rename_i hparse
    rw [Part.kindOf_of_parse hparse]
    exact Wire.kindOf_encodeBody _ _

end Message

namespace Partial

/-- Parts make up a message of the kind that their lead stands for, whatever their chunks
    are. -/
theorem kindOf_toMessage (q : Partial) :
    KindSource.sniffed.kindOf q.toMessage.body = Wire.kindOfLead q.lead :=
  Wire.kindOf_encodeBody _ _

/-- Parts make up no part, whatever their chunks are. -/
theorem isFinal_toMessage (limits : Limits) (q : Partial) : q.toMessage.IsFinal limits :=
  Message.isFinal_plain limits _ _ _ _

end Partial

namespace Buffer

variable {buffer buffer' : Buffer}

/-! ## All ways together -/

/-- What the buffer releases comes from the sender whose message was offered, is of the
    kind of that message, and is final. -/
structure ReleasesFinally (limits : Limits) (buffer : Buffer) : Prop where
  sender_eq : ∀ {now m whole}, (buffer.offer limits now m).1 = .complete whole →
    whole.sender = m.sender
  kindOf_eq : ∀ {now m whole}, (buffer.offer limits now m).1 = .complete whole →
    KindSource.sniffed.kindOf whole.body = KindSource.sniffed.kindOf m.body
  isFinal : ∀ {now m whole}, (buffer.offer limits now m).1 = .complete whole →
    whole.IsFinal limits
  /-- Parts under one lead make up a message of its kind, which is no part of another. -/
  joined : ∀ {kind lead}, (kind, lead) ∈ Wire.leads → ∀ q : Partial, q.lead = lead →
    KindSource.sniffed.kindOf q.toMessage.body = kind ∧ q.toMessage.IsFinal limits

/-- A message is released as it passes by, or as the whole that it completes. -/
theorem released_eq (h : (buffer.offer limits now m).1 = .complete whole) :
    whole = m.passing ∨ ∃ (p : Part) (q : Partial), m.part? = some p ∧ q.sender = m.sender ∧
      q.lead = p.lead ∧ whole = (q.fill m p).toMessage := by
  cases hpart : m.part? with
  | none =>
    rw [offer_passed limits now hpart] at h
    exact .inl (Release.complete.inj h).symm
  | some p =>
    generalize hoffer : buffer.offer limits now m = result at h
    obtain ⟨answer, buffer'⟩ := result
    cases offer_answers hoffer with
    | passed hnone => exact nomatch hpart.symm.trans hnone
    | opened | joined => exact nomatch h
    | @released p q hp hfind haccepts =>
      obtain rfl := Option.some.inj (hpart.symm.trans hp)
      obtain ⟨hsender, -⟩ := Partial.isFor_iff.1 (isFor_of_find? hfind)
      have hlead : q.lead = p.lead := by
        simp only [Partial.accepts, Bool.and_eq_true, beq_iff_eq] at haccepts
        exact haccepts.1.2
      exact .inr ⟨p, q, rfl, hsender, hlead, (Release.complete.inj h).symm⟩

/-- Whatever has been offered to the buffer, what it releases is final. -/
theorem releasesFinally (limits : Limits) (buffer : Buffer) : ReleasesFinally limits buffer where
  sender_eq {now m whole} h := by
    rcases released_eq h with rfl | ⟨p, q, -, hsender, -, rfl⟩
    · exact m.sender_passing
    · exact hsender
  kindOf_eq {now m whole} h := by
    rcases released_eq h with rfl | ⟨p, q, hp, -, hlead, rfl⟩
    · exact m.kindOf_passing
    · obtain ⟨hparse, -⟩ := Message.part?_eq_some.1 hp
      rw [Partial.kindOf_toMessage, Part.kindOf_of_parse hparse, ← hlead]
      rfl
  isFinal {now m whole} h := by
    rcases released_eq h with rfl | ⟨p, q, -, -, -, rfl⟩
    · exact m.isFinal_passing limits
    · exact (q.fill m p).isFinal_toMessage limits
  joined {kind lead} hlead q hq := by
    refine ⟨?_, q.isFinal_toMessage limits⟩
    rw [Partial.kindOf_toMessage, hq, Wire.kindOfLead_eq hlead]

end Buffer

end SecureInbox
