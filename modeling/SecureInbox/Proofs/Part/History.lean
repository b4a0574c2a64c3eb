import SecureInbox.Proofs.Part.Collect

/-!
# The calls behind a buffer

A *history* is the list of all calls that were made since the buffer was empty,
each with its answer. Which of the oldest partials had to go when there was no room
is left open; the calls of `Buffer.offer` make one history among others
(`History.offer`).

Whatever the calls were, every partial in the buffer was built by the last of them,
without a gap (`History.isBuiltBy`): the first of these calls opened it, every one of
them for its sender and identifier agrees with it and was put into it, and none of
those gave back a whole message.
-/

namespace SecureInbox

/-- A call of the buffer and its answer. -/
structure Call where
  time : Nat
  message : Message
  answer : Release

/-- The calls, oldest first, have led from the empty buffer to this one. -/
inductive History (limits : Limits) : List Call → Buffer → Prop
  | nil : History limits [] []
  | snoc {calls : List Call} {buffer buffer' : Buffer} {c : Call} :
      History limits calls buffer → Buffer.Answers limits c.time buffer c.message c.answer buffer' →
      History limits (calls ++ [c]) buffer'

/-- Calls of `Buffer.offer` make a history. -/
theorem History.offer {limits : Limits} {calls : List Call} {buffer buffer' : Buffer} {c : Call}
    (h : History limits calls buffer)
    (hoffer : buffer.offer limits c.time c.message = (c.answer, buffer')) :
    History limits (calls ++ [c]) buffer' :=
  h.snoc (Buffer.offer_answers hoffer)

/-- The arrival that a message is, if it is a part from this sender with this
    identifier and one of several. -/
def Message.arrivalFor? (sender : String) (identifier : UInt8) (m : Message) : Option Arrival :=
  if m.sender = sender then
    (m.part?.filter (·.identifier == identifier)).map fun p => { message := m, part := p }
  else none

theorem Message.arrivalFor?_eq_some {sender : String} {identifier : UInt8} {m : Message}
    {a : Arrival} :
    m.arrivalFor? sender identifier = some a ↔
      a.message = m ∧ m.part? = some a.part ∧ m.sender = sender ∧
        a.part.identifier = identifier := by
  unfold arrivalFor?
  split
  · rename_i hsender
    simp only [Option.map_eq_some_iff, Option.filter_eq_some_iff, beq_iff_eq]
    constructor
    · rintro ⟨p, ⟨hp, hidentifier⟩, rfl⟩
      exact ⟨rfl, hp, hsender, hidentifier⟩
    · rintro ⟨rfl, hpart, -, hidentifier⟩
      exact ⟨a.part, ⟨hpart, hidentifier⟩, rfl⟩
  · rename_i hsender
    exact iff_of_false nofun fun h => hsender h.2.2.1

/-- The arrivals that calls brought from a sender with an identifier. -/
def arrivalsFor (sender : String) (identifier : UInt8) (calls : List Call) : List Arrival :=
  calls.filterMap (·.message.arrivalFor? sender identifier)

section

variable {sender : String} {identifier : UInt8} {calls : List Call} {c : Call}

theorem arrivalsFor_singleton {a : Arrival}
    (hc : c.message.arrivalFor? sender identifier = some a) :
    arrivalsFor sender identifier [c] = [a] := by
  simp [arrivalsFor, hc]

theorem arrivalsFor_concat_none (hc : c.message.arrivalFor? sender identifier = none) :
    arrivalsFor sender identifier (calls ++ [c]) = arrivalsFor sender identifier calls := by
  simp [arrivalsFor, hc]

theorem arrivalsFor_concat_some {a : Arrival}
    (hc : c.message.arrivalFor? sender identifier = some a) :
    arrivalsFor sender identifier (calls ++ [c]) = arrivalsFor sender identifier calls ++ [a] := by
  simp [arrivalsFor, hc]

end

/-- A message offered to the buffer at a time of the clock. -/
structure Offer where
  time : Nat
  message : Message

/-- The buffer after these were offered to it. -/
def Buffer.after (limits : Limits) : List Offer → Buffer → Buffer
  | [], buffer => buffer
  | o :: offers, buffer => after limits offers (buffer.offer limits o.time o.message).2

theorem Buffer.after_append (limits : Limits) (offers offers' : List Offer) (buffer : Buffer) :
    buffer.after limits (offers ++ offers') = (buffer.after limits offers).after limits offers' := by
  induction offers generalizing buffer with
  | nil => rfl
  | cons o offers ih => exact ih _

/-- A history goes on with any offers at all. -/
theorem History.extend {limits : Limits} {calls : List Call} {buffer : Buffer}
    (h : History limits calls buffer) (offers : List Offer) :
    ∃ calls', History limits (calls ++ calls') (buffer.after limits offers) ∧
      calls'.map (·.time) = offers.map (·.time) := by
  induction offers generalizing calls buffer with
  | nil => exact ⟨[], by rwa [List.append_nil], rfl⟩
  | cons o offers ih =>
    let c : Call := ⟨o.time, o.message, (buffer.offer limits o.time o.message).1⟩
    obtain ⟨calls', hcalls', htimes⟩ := ih (h.offer (c := c) rfl)
    refine ⟨c :: calls', ?_, by simp [c, htimes]⟩
    rwa [List.append_assoc, List.singleton_append] at hcalls'

/-- A call of the history was made when the calls before it had been. -/
theorem History.at {limits : Limits} {calls : List Call} {buffer : Buffer}
    (h : History limits calls buffer) {j : Nat} {c : Call} (hj : calls[j]? = some c) :
    ∃ b b', History limits (calls.take j) b ∧
      Buffer.Answers limits c.time b c.message c.answer b' := by
  -- Position `j` is either among the earlier calls or that of the last one.
  induction h with
  | nil => exact nomatch hj
  | @snoc calls buffer buffer' last hcalls hanswers ih =>
    by_cases hlt : j < calls.length
    · rw [List.getElem?_append_left hlt] at hj
      rw [List.take_append_of_le_length (Nat.le_of_lt hlt)]
      exact ih hj
    · rw [List.getElem?_append_right (Nat.not_lt.1 hlt), List.getElem?_singleton] at hj
      split at hj
      · rename_i hzero
        obtain rfl : calls.length = j := by omega
        cases hj
        rw [List.take_left]
        exact ⟨_, _, hcalls, hanswers⟩
      · exact nomatch hj

namespace Partial

/-- The calls, of which `first` is the first, have built the partial. -/
structure IsBuiltBy (q : Partial) (first : Call) (since : List Call) : Prop where
  opened : ∃ a, first.message.arrivalFor? q.sender q.identifier = some a ∧
    q = collecting first.time a (arrivalsFor q.sender q.identifier (first :: since))
  undisturbed : ∀ c ∈ first :: since, ∀ a,
    c.message.arrivalFor? q.sender q.identifier = some a →
      q.accepts a.part = true ∧ ∀ m, c.answer ≠ .complete m

namespace IsBuiltBy

variable {q : Partial} {first c : Call} {since : List Call} {a : Arrival}

theorem opening (hc : c.message.arrivalFor? a.message.sender a.part.identifier = some a)
    (hanswer : ∀ m, c.answer ≠ .complete m) : (collecting c.time a [a]).IsBuiltBy c [] where
  opened := by
    refine ⟨a, hc, congrArg (collecting c.time a) ?_⟩
    exact (arrivalsFor_singleton hc).symm
  undisturbed d hd b hb := by
    cases List.mem_singleton.1 hd
    cases hc.symm.trans hb
    exact ⟨by simp [accepts, collecting], hanswer⟩

/-- A call for another sender or identifier does not matter. -/
theorem passed (h : q.IsBuiltBy first since)
    (hc : c.message.arrivalFor? q.sender q.identifier = none) :
    q.IsBuiltBy first (since ++ [c]) where
  opened := by
    obtain ⟨b, hb, hq⟩ := h.opened
    refine ⟨b, hb, ?_⟩
    rwa [← List.cons_append, arrivalsFor_concat_none hc]
  undisturbed d hd := by
    rw [← List.cons_append, List.mem_append, List.mem_singleton] at hd
    rcases hd with hd | rfl
    · exact h.undisturbed d hd
    · rw [hc]
      exact fun _ h => nomatch h

/-- A partial filled with one more part collects from one more call. -/
theorem fill_eq (h : q.IsBuiltBy first since)
    (hc : c.message.arrivalFor? q.sender q.identifier = some a) :
    ∃ b, first.message.arrivalFor? q.sender q.identifier = some b ∧
      q.fill a.message a.part =
        collecting first.time b (arrivalsFor q.sender q.identifier (first :: since ++ [c])) := by
  obtain ⟨b, hb, hq⟩ := h.opened
  refine ⟨b, hb, ?_⟩
  calc q.fill a.message a.part
      = (collecting first.time b (arrivalsFor q.sender q.identifier (first :: since))).fill
          a.message a.part := congrArg (fun q => q.fill a.message a.part) hq
    _ = collecting first.time b
          (arrivalsFor q.sender q.identifier (first :: since) ++ [a]) := fill_collecting a
    _ = collecting first.time b
          (arrivalsFor q.sender q.identifier (first :: since ++ [c])) := by
      rw [arrivalsFor_concat_some hc]

/-- A call with a part that the partial accepts extends it. -/
theorem joined (h : q.IsBuiltBy first since)
    (hc : c.message.arrivalFor? q.sender q.identifier = some a)
    (haccepts : q.accepts a.part = true) (hanswer : ∀ m, c.answer ≠ .complete m) :
    (q.fill a.message a.part).IsBuiltBy first (since ++ [c]) where
  opened := h.fill_eq hc
  undisturbed d hd b hb := by
    have haccepts' : (q.fill a.message a.part).accepts b.part = q.accepts b.part := by
      simp [accepts, fill]
    rw [haccepts']
    rw [← List.cons_append, List.mem_append, List.mem_singleton] at hd
    rcases hd with hd | rfl
    · exact h.undisturbed d hd b hb
    · cases hc.symm.trans hb
      exact ⟨haccepts, hanswer⟩

end IsBuiltBy

end Partial

namespace Message

variable {m : Message} {p : Part}

theorem arrivalFor?_self (hp : m.part? = some p) :
    m.arrivalFor? m.sender p.identifier = some ⟨m, p⟩ :=
  arrivalFor?_eq_some.2 ⟨rfl, hp, rfl, rfl⟩

theorem arrivalFor?_of_part? (h : m.part? = none) (sender : String) (identifier : UInt8) :
    m.arrivalFor? sender identifier = none := by
  simp [arrivalFor?, h]

/-- A part is no arrival for a partial of another sender or identifier. -/
theorem arrivalFor?_of_isFor {q : Partial} (hp : m.part? = some p)
    (h : q.isFor m.sender p.identifier = false) : m.arrivalFor? q.sender q.identifier = none := by
  refine Option.eq_none_iff_forall_not_mem.2 fun a ha => ?_
  obtain ⟨-, hpart, hsender, hidentifier⟩ := arrivalFor?_eq_some.1 ha
  cases hpart.symm.trans hp
  simp [Partial.isFor, ← hsender, ← hidentifier] at h

end Message

namespace History

variable {limits : Limits} {calls : List Call} {buffer : Buffer}

/-- Every partial in the buffer was built by the last of the calls. -/
theorem isBuiltBy (h : History limits calls buffer) :
    ∀ q ∈ buffer, ∃ first since, first :: since <:+ calls ∧ q.IsBuiltBy first since := by
  induction h with
  | nil => exact nofun
  | @snoc calls buffer buffer' c _ hanswers ih =>
    -- A partial that the call is not for is left as it was, and the call goes to the
    -- end of those that built it. The one it is for is the last of the new buffer.
    have hstays : ∀ q ∈ buffer, c.message.arrivalFor? q.sender q.identifier = none →
        ∃ first since, first :: since <:+ calls ++ [c] ∧ q.IsBuiltBy first since := by
      intro q hq hc
      obtain ⟨first, since, ⟨before, hcalls⟩, hq⟩ := ih q hq
      exact ⟨first, since ++ [c], ⟨before, by simp [← hcalls]⟩, hq.passed hc⟩
    have hbesides : ∀ {p}, c.message.part? = some p →
        ∀ q ∈ buffer.besides limits c.time c.message p,
          ∃ first since, first :: since <:+ calls ++ [c] ∧ q.IsBuiltBy first since := by
      intro p hp q hq
      obtain ⟨hq, hfor⟩ := Buffer.mem_of_mem_besides hq
      exact hstays q hq (Message.arrivalFor?_of_isFor hp hfor)
    generalize hanswer : c.answer = answer at hanswers
    cases hanswers with
    | passed hpart =>
      exact fun q hq => hstays q hq (Message.arrivalFor?_of_part? hpart _ _)
    | opened hpart _ hrest =>
      intro q hq
      rcases List.mem_append.1 hq with hq | hq
      · exact hbesides hpart q (hrest.sublist.subset hq)
      · cases List.mem_singleton.1 hq
        exact ⟨c, [], List.suffix_append _ _,
          .opening (Message.arrivalFor?_self hpart) (by rw [hanswer]; exact nofun)⟩
    | @joined p q hpart hfind haccepts =>
      intro q' hq'
      rcases List.mem_append.1 hq' with hq' | hq'
      · exact hbesides hpart q' hq'
      · cases List.mem_singleton.1 hq'
        obtain ⟨first, since, ⟨before, hcalls⟩, hq⟩ :=
          ih q (Buffer.mem_of_mem_expire (Buffer.mem_of_find? hfind)).1
        obtain ⟨hsender, hidentifier⟩ := Partial.isFor_iff.1 (Buffer.isFor_of_find? hfind)
        have harrival : c.message.arrivalFor? q.sender q.identifier = some ⟨c.message, p⟩ := by
          rw [hsender, hidentifier, Message.arrivalFor?_self hpart]
        exact ⟨first, since ++ [c], ⟨before, by simp [← hcalls]⟩,
          hq.joined harrival haccepts (by rw [hanswer]; exact nofun)⟩
    | released hpart => exact hbesides hpart

end History

end SecureInbox
