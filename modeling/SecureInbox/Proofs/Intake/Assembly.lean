import SecureInbox.Proofs.Intake.Whole
import SecureInbox.Proofs.Part.Isolation

/-!
# Events and the buffer

An event is assembled before anything is done at the desk (`Intake.take_eq_assembled`).
What it comes to depends on the buffer only if it *offers* a message to it
(`Event.offered?`), and then, with room for all, only on the share of its sender
(`Event.assembled_congr`). Events of others leave that share alone
(`Event.share_assembled_of_ne`).
-/

namespace SecureInbox

variable {μ σ : Type} {limits : Limits} {m : Message} {buffer buffer' : Buffer} {sender : String}
  {keys : List (String × UInt8)}

/-- What the answer of the buffer means for an event. -/
def Release.assembled : Release → Assembled
  | .complete m => .ready m .sniffed
  | .awaiting identifier received expected => .awaiting identifier received expected

namespace Event

variable (e : Event)

/-- What the fragments of an event come to, and the buffer after them. -/
def assembled (limits : Limits) (buffer : Buffer) : Except Malformed Assembled × Buffer :=
  match e.declared.tag? with
  | .error cause => (.error cause, buffer)
  | .ok tag => buffer.assemble limits e.time e.fragments tag

/-- The message of the joined fragments. A single fragment with a tag is not joined. -/
def joined? : Option Message :=
  match e.declared.tag?, e.fragments with
  | .error _, _ => none
  | .ok _, [] => none
  | .ok (some _), [_] => none
  | .ok _, f :: rest => some (Message.join f (f :: rest))

/-- The message that an event offers to the buffer: the joined one, if it is special. -/
def offered? : Option Message := e.joined?.filter (Wire.isSpecial ·.body)

/-- The sender and the identifier of the part that an event brings, if it is one of
    several. -/
def key? : Option (String × UInt8) := e.offered?.bind Message.key?

/-- The event, delivered again at another time. -/
def again (now : Nat) : Event := { e with time := now }

variable {e}

theorem assembled_of_joined? (h : e.joined? = some m) (limits : Limits) (buffer : Buffer) :
    e.assembled limits buffer =
      (.ok (buffer.assembleJoined limits e.time m).1,
        (buffer.assembleJoined limits e.time m).2) := by
  unfold joined? at h
  split at h
  · exact nomatch h
  · exact nomatch h
  · exact nomatch h
  · rename_i tag f rest hsingle htag hfragments
    cases h
    simp only [assembled, htag, hfragments]
    cases rest with
    | cons => simp only [Buffer.assemble]
    | nil =>
      cases tag with
      | none => simp only [Buffer.assemble]
      | some tag => exact (hsingle tag rfl rfl).elim

/-- What is joined has no flag yet. -/
theorem flags_joined? (h : e.joined? = some m) : m.flags = .empty := by
  unfold joined? at h
  split at h <;> cases h
  rfl

/-- Where nothing is joined, the buffer and the clock play no part. -/
theorem assembled_of_joined?_eq_none (h : e.joined? = none) (limits : Limits) :
    ∃ assembled, ∀ now buffer, (e.again now).assembled limits buffer = (assembled, buffer) := by
  cases htag : e.declared.tag? with
  | error cause => exact ⟨.error cause, fun now buffer => by simp only [assembled, again, htag]⟩
  | ok tag =>
    unfold joined? at h
    split at h
    · rename_i herror
      cases htag.symm.trans herror
    · rename_i hfragments
      exact ⟨.error .noFragments, fun now buffer => by
        simp only [assembled, again, htag, hfragments, Buffer.assemble]⟩
    · rename_i tag f htag hfragments
      exact ⟨.ok (.ready (Message.ofFragment f) (.tagged tag)), fun now buffer => by
        simp only [assembled, again, htag, hfragments, Buffer.assemble]⟩
    · cases h

/-- A message that is offered comes from the sender of the event. -/
theorem sender_offered? (h : e.offered? = some m) : e.sender? = some m.sender := by
  have hjoined := (Option.filter_eq_some_iff.1 h).1
  unfold joined? at hjoined
  split at hjoined
  · exact nomatch hjoined
  · exact nomatch hjoined
  · exact nomatch hjoined
  · rename_i hfragments
    cases hjoined
    rw [sender?, hfragments]
    rfl

theorem key?_of_offered? (h : e.offered? = some m) : e.key? = m.key? := by
  rw [key?, h, Option.bind_some]

/-- An event that offers a message comes to what the buffer answers. -/
theorem assembled_of_offered? (h : e.offered? = some m) (limits : Limits) (buffer : Buffer) :
    e.assembled limits buffer =
      (.ok (buffer.offer limits e.time m).1.assembled, (buffer.offer limits e.time m).2) := by
  obtain ⟨hjoined, hspecial⟩ := Option.filter_eq_some_iff.1 h
  rw [assembled_of_joined? hjoined, Buffer.assembleJoined, if_pos hspecial]
  rcases buffer.offer limits e.time m with ⟨_ | _, buffer'⟩ <;> rfl

/-- An event that brings no part comes to the same with any buffer and at any time. -/
theorem assembled_again (h : e.key? = none) (limits : Limits) :
    ∃ assembled, ∀ now buffer, (e.again now).assembled limits buffer = (assembled, buffer) := by
  cases hjoined : e.joined? with
  | none => exact assembled_of_joined?_eq_none hjoined limits
  | some m =>
    have hagain : ∀ now, (e.again now).joined? = some m := fun _ => hjoined
    by_cases hspecial : Wire.isSpecial m.body = true
    · have hpart : m.part? = none := by
        rw [key?, offered?, hjoined, Option.filter_some, if_pos hspecial, Option.bind_some] at h
        exact Option.map_eq_none_iff.1 h
      refine ⟨.ok (.ready m.passing .sniffed), fun now buffer => ?_⟩
      rw [assembled_of_joined? (hagain now), Buffer.assembleJoined, if_pos hspecial,
        Buffer.offer_passed _ _ hpart]
    · refine ⟨.ok (.ready m .sniffed), fun now buffer => ?_⟩
      rw [assembled_of_joined? (hagain now), Buffer.assembleJoined, if_neg hspecial]

/-- An event that offers nothing comes to the same with any buffer. -/
theorem assembled_of_offered?_eq_none (h : e.offered? = none) (limits : Limits) :
    ∃ assembled, ∀ buffer, e.assembled limits buffer = (assembled, buffer) :=
  have hkey : e.key? = none := by rw [key?, h, Option.bind_none]
  let ⟨assembled, hassembled⟩ := assembled_again hkey limits
  ⟨assembled, hassembled e.time⟩

/-! ## Shares -/

section

variable (hroom : keys.dedup.length ≤ limits.room) (hkeys : ∀ key, e.key? = some key → key ∈ keys)

include hroom hkeys

/-- With room for all, assembling an event opens no partials for other keys. -/
theorem keyedBy_assembled (h : buffer.KeyedBy keys) :
    (e.assembled limits buffer).2.KeyedBy keys := by
  cases hoffered : e.offered? with
  | none =>
    obtain ⟨_, hpassed⟩ := assembled_of_offered?_eq_none hoffered limits
    rwa [hpassed]
  | some m =>
    rw [key?_of_offered? hoffered] at hkeys
    rw [assembled_of_offered? hoffered]
    exact h.offer hroom hkeys

/-- An event comes to the same over buffers with the same share of its sender, and the
    shares stay the same. -/
theorem assembled_congr (h : buffer.KeyedBy keys) (h' : buffer'.KeyedBy keys)
    (hsender : e.sender? = some sender)
    (hshare : buffer.share limits e.time sender = buffer'.share limits e.time sender) :
    (e.assembled limits buffer).1 = (e.assembled limits buffer').1 ∧
      (e.assembled limits buffer).2.share limits e.time sender =
        (e.assembled limits buffer').2.share limits e.time sender := by
  cases hoffered : e.offered? with
  | none =>
    obtain ⟨_, hpassed⟩ := assembled_of_offered?_eq_none hoffered limits
    rw [hpassed, hpassed]
    exact ⟨rfl, hshare⟩
  | some m =>
    cases hsender.symm.trans (sender_offered? hoffered)
    rw [key?_of_offered? hoffered] at hkeys
    obtain ⟨hanswer, hshare⟩ := Buffer.offer_congr h h' hroom hkeys hshare
    rw [assembled_of_offered? hoffered, assembled_of_offered? hoffered, hanswer]
    exact ⟨rfl, hshare⟩

/-- An event of anyone else leaves the share of a sender alone. -/
theorem share_assembled_of_ne (h : buffer.KeyedBy keys) (hne : e.sender? ≠ some sender) :
    (e.assembled limits buffer).2.share limits e.time sender =
      buffer.share limits e.time sender := by
  cases hoffered : e.offered? with
  | none =>
    obtain ⟨_, hpassed⟩ := assembled_of_offered?_eq_none hoffered limits
    rw [hpassed]
  | some m =>
    rw [sender_offered? hoffered, ne_eq, Option.some.injEq] at hne
    rw [key?_of_offered? hoffered] at hkeys
    rw [assembled_of_offered? hoffered]
    exact Buffer.share_offer_of_ne h hroom hkeys hne

end

theorem message?_eq (e : Event) (limits : Limits) (buffer : Buffer) :
    e.message? limits buffer =
      match (e.assembled limits buffer).1 with
      | .ok (.ready m source) => some (m.classify source)
      | _ => none := by
  unfold message? assembled
  cases e.declared.tag? with
  | error => rfl
  | ok tag => rfl

end Event

/-- An event is assembled, and what got whole is delivered. -/
theorem Intake.take_eq_assembled (intake : Intake μ σ) (e : Event) (r : Receiver μ σ) :
    intake.take e r =
      match e.assembled intake.limits r.buffer with
      | (.error cause, buffer) => (.error (.malformed cause), { r with buffer })
      | (.ok (.awaiting identifier received expected), buffer) =>
        (.ok (.awaitingParts identifier received expected), { r with buffer })
      | (.ok (.ready m source), buffer) =>
        ((intake.deliver e.secret (m.classify source) r.desk).1,
          { buffer, desk := (intake.deliver e.secret (m.classify source) r.desk).2 }) := by
  rw [take_eq, Event.assembled]
  cases e.declared.tag? with
  | error => rfl
  | ok tag => rfl

end SecureInbox
