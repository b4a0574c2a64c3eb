import SecureInbox.Proofs.Part.Envelope
import SecureInbox.Proofs.Part.Oldest
import SecureInbox.Proofs.Part.Partial

/-!
# Offering a part to the buffer

A message that is one of several parts (`Message.part?`) is put into a partial,
and either that is whole then and leaves, or it goes to the end of the buffer
(`Buffer.settle`). Which partial takes the part depends on the one for its sender
and identifier: if that is young enough and agrees it does
(`Buffer.offer_joined`), and otherwise a new one is opened
(`Buffer.offer_opened`). Any other message passes by the buffer
(`Buffer.offer_passed`).

`Buffer.Answers` sums this up, and leaves it open which of the oldest partials make room
for a new one. What `Buffer.offer` does is one way to do it (`Buffer.offer_answers`), the
answer does not depend on it (`Buffer.Answers.fst_offer`), and as long as no two partials
were opened at the same time there is no other way (`Buffer.Answers.offer_eq`).
-/

namespace SecureInbox

/-- The part that a message is, if it is one of several. -/
def Message.part? (m : Message) : Option Part :=
  (Part.parse m.body).toOption.filter (·.count != 1)

/-- What becomes of a message that is not one of several parts: a part that cannot
    be read is marked as corrupted, and a lone part is unpacked. -/
def Message.passing (m : Message) : Message :=
  match Part.parse m.body with
  | .error .notAPart => m
  | .error _ => m.withFlag .corrupted
  | .ok p =>
    .plain m.sender (Wire.encodeBody (Wire.kindOfLead p.lead) (p.version :: p.chunk)) m.timestamp

namespace Message

variable {m : Message} {p : Part}

theorem part?_eq_some :
    m.part? = some p ↔ Part.parse m.body = .ok p ∧ p.count ≠ 1 := by
  cases h : Part.parse m.body <;> simp [part?, h, Except.toOption, Option.filter_eq_some_iff]

theorem sender_passing (m : Message) : m.passing.sender = m.sender := by
  unfold passing
  split
  · rfl
  · rfl
  · simp only [plain]

theorem isWellFormed_part? (h : m.part? = some p) : p.IsWellFormed :=
  Part.isWellFormed_of_parse (part?_eq_some.1 h).1

theorem one_lt_count (h : m.part? = some p) : 1 < p.count.toNat := by
  have hone := (part?_eq_some.1 h).2
  have hzero := (isWellFormed_part? h).count_ne_zero
  simp only [ne_eq, ← UInt8.toNat_inj, UInt8.toNat_zero, UInt8.toNat_one] at hone hzero
  omega

/-- A half of a message is read off the body that was written for it. -/
theorem part?_half {index : UInt8} (h : index < 2) (b : UInt8) (sender : String)
    (timestamp : UInt64) :
    (plain sender (Part.half index b).encode timestamp).part? = some (Part.half index b) :=
  part?_eq_some.2 ⟨Part.parse_encode (Part.isWellFormed_half h b), by simp [Part.half]⟩

end Message

theorem Partial.isFor_iff {q : Partial} {sender : String} {identifier : UInt8} :
    q.isFor sender identifier = true ↔ q.sender = sender ∧ q.identifier = identifier := by
  simp [isFor]

namespace Buffer

variable {limits : Limits} {now : Nat} {m : Message} {p : Part} {buffer : Buffer}
  {sender : String} {identifier : UInt8} {q : Partial}

/-! ## Looking a partial up -/

/-- No partial collects for the sender and the identifier. -/
abbrev IsFree (buffer : Buffer) (sender : String) (identifier : UInt8) : Prop :=
  buffer.find? sender identifier = none

theorem isFree_iff :
    buffer.IsFree sender identifier ↔ ∀ q ∈ buffer, q.isFor sender identifier = false := by
  simp [IsFree, find?, List.find?_eq_none]

theorem isFor_of_find? (h : buffer.find? sender identifier = some q) :
    q.isFor sender identifier = true := by
  rw [find?] at h
  have hfor := List.find?_some h
  exact hfor

theorem mem_of_find? (h : buffer.find? sender identifier = some q) : q ∈ buffer :=
  List.mem_of_find?_eq_some h

theorem mem_of_mem_expire (h : q ∈ buffer.expire limits now) :
    q ∈ buffer ∧ q.isAlive limits now = true :=
  List.mem_filter.1 h

theorem mem_of_mem_others (h : q ∈ buffer.others sender identifier) :
    q ∈ buffer ∧ q.isFor sender identifier = false := by
  simpa [others] using h

theorem isFree_others : (buffer.others sender identifier).IsFree sender identifier := by
  simp [isFree_iff, others]

theorem IsFree.of_subset {buffer' : Buffer} (h : buffer.IsFree sender identifier)
    (hsubset : buffer' ⊆ buffer) : buffer'.IsFree sender identifier :=
  isFree_iff.2 fun q hq => isFree_iff.1 h q (hsubset hq)

theorem IsFree.find?_concat (h : buffer.IsFree sender identifier)
    (hq : q.isFor sender identifier = true) :
    (buffer ++ [q]).find? sender identifier = some q := by
  rw [IsFree, find?] at h
  rw [find?, List.find?_append, h, List.find?_singleton, if_pos hq, Option.none_or]

theorem find?_filter {keep : Partial → Bool} (h : buffer.find? sender identifier = some q)
    (hkeep : keep q = true) : find? (buffer.filter keep) sender identifier = some q := by
  -- The partial stays the first for its sender and identifier: those before it are
  -- for others, and some of them may go.
  obtain ⟨hfor, before, after, rfl, hbefore⟩ := List.find?_eq_some_iff_append.1 h
  rw [find?, List.find?_filter]
  refine List.find?_eq_some_iff_append.2 ⟨by simp [hfor, hkeep], before, after, rfl, ?_⟩
  intro q' hq'
  have hfor : q'.isFor sender identifier = false := by simpa using hbefore q' hq'
  simp [hfor]

theorem find?_expire (h : buffer.find? sender identifier = some q)
    (halive : q.isAlive limits now = true) :
    (buffer.expire limits now).find? sender identifier = some q :=
  find?_filter h halive

/-! ## Taking a part in -/

/-- A partial that has taken in a part leaves as a whole message if it can;
    otherwise it is put at the end of the buffer. -/
def settle (q : Partial) (rest : Buffer) : Release × Buffer :=
  if q.isComplete then (.complete q.toMessage, rest)
  else (.awaiting q.identifier q.received q.slots.length, rest ++ [q])

theorem settle_complete (h : q.isComplete = true) (rest : Buffer) :
    settle q rest = (.complete q.toMessage, rest) :=
  if_pos h

theorem settle_awaiting (h : q.isComplete = false) (rest : Buffer) :
    settle q rest = (.awaiting q.identifier q.received q.slots.length, rest ++ [q]) :=
  if_neg (by simp [h])

/-- The partials that a part leaves alone: those that are still alive and
    collect for another sender or identifier. -/
def besides (limits : Limits) (now : Nat) (m : Message) (p : Part) (buffer : Buffer) : Buffer :=
  (buffer.expire limits now).others m.sender p.identifier

theorem mem_of_mem_besides (h : q ∈ buffer.besides limits now m p) :
    q ∈ buffer ∧ q.isFor m.sender p.identifier = false :=
  let ⟨hq, hfor⟩ := mem_of_mem_others h
  ⟨(mem_of_mem_expire hq).1, hfor⟩

theorem besides_sublist (limits : Limits) (now : Nat) (m : Message) (p : Part) (buffer : Buffer) :
    (buffer.besides limits now m p).Sublist buffer :=
  List.filter_sublist.trans List.filter_sublist

theorem offer_eq_collect (hp : m.part? = some p) :
    buffer.offer limits now m = buffer.collect limits now m p := by
  obtain ⟨hparse, hone⟩ := Message.part?_eq_some.1 hp
  simp only [offer, hparse, if_neg hone]

/-- A part is put into the partial for it, if that is still alive and agrees. -/
theorem offer_joined (hp : m.part? = some p)
    (h : (buffer.expire limits now).find? m.sender p.identifier = some q)
    (haccepts : q.accepts p = true) :
    buffer.offer limits now m = settle (q.fill m p) (buffer.besides limits now m p) := by
  rw [offer_eq_collect hp, collect, place, h, Option.filter_some, if_pos haccepts]
  rfl

/-- Where no partial will take it, a part opens one, and room is made for it. -/
theorem offer_opened (hp : m.part? = some p)
    (h : ((buffer.expire limits now).find? m.sender p.identifier).filter (·.accepts p) = none) :
    buffer.offer limits now m =
      settle (Partial.collecting now ⟨m, p⟩ [⟨m, p⟩])
        ((buffer.besides limits now m p).makeRoom limits) := by
  rw [offer_eq_collect hp, collect, place, h]
  dsimp only
  rw [Partial.fill_openFor]
  rfl

/-- A new partial waits for more: a part that is alone does not come here. -/
theorem settle_opened (hp : m.part? = some p) (now : Nat) (rest : Buffer) :
    settle (Partial.collecting now ⟨m, p⟩ [⟨m, p⟩]) rest =
      (.awaiting p.identifier 1 p.count.toNat,
        rest ++ [Partial.collecting now ⟨m, p⟩ [⟨m, p⟩]]) := by
  have hreceived : (Partial.collecting now ⟨m, p⟩ [⟨m, p⟩]).received = 1 := by
    rw [Partial.received_collecting]
    · rfl
    · simpa using UInt8.lt_iff_toNat_lt.1 (Message.isWellFormed_part? hp).index_lt
  rw [settle_awaiting (Partial.isComplete_collecting_single (Message.one_lt_count hp)), hreceived,
    Partial.length_slots_collecting]
  rfl

/-- A part that no other came before waits for the rest. -/
theorem offer_free (limits : Limits) (now : Nat) (hp : m.part? = some p)
    (hfree : buffer.IsFree m.sender p.identifier) :
    (buffer.offer limits now m).1 = .awaiting p.identifier 1 p.count.toNat := by
  have hnone : (buffer.expire limits now).find? m.sender p.identifier = none :=
    hfree.of_subset fun _ hq => (mem_of_mem_expire hq).1
  rw [offer_opened hp (by rw [hnone, Option.filter_none]), settle_opened hp]

/-- A message that is not one of several parts passes by the buffer. -/
theorem offer_passed (limits : Limits) (now : Nat) (h : m.part? = none) (buffer : Buffer) :
    buffer.offer limits now m = (.complete m.passing, buffer) := by
  unfold offer Message.passing
  cases hparse : Part.parse m.body with
  | error cause => cases cause <;> rfl
  | ok p =>
    by_cases hone : p.count = 1
    · simp only [if_pos hone]
    · exact nomatch h.symm.trans (Message.part?_eq_some.2 ⟨hparse, hone⟩)

/-- What a call answers, and what the buffer is then. Where room has to be made, any of the
    oldest partials may go. -/
inductive Answers (limits : Limits) (now : Nat) (buffer : Buffer) (m : Message) :
    Release → Buffer → Prop
  | passed : m.part? = none → Answers limits now buffer m (.complete m.passing) buffer
  | opened {p : Part} {rest : Buffer} : m.part? = some p →
      ((buffer.expire limits now).find? m.sender p.identifier).filter (·.accepts p) = none →
      (buffer.besides limits now m p).LeavesRoom limits rest →
      Answers limits now buffer m (.awaiting p.identifier 1 p.count.toNat)
        (rest ++ [Partial.collecting now ⟨m, p⟩ [⟨m, p⟩]])
  | joined {p : Part} {q : Partial} : m.part? = some p →
      (buffer.expire limits now).find? m.sender p.identifier = some q → q.accepts p = true →
      (q.fill m p).isComplete = false →
      Answers limits now buffer m
        (.awaiting p.identifier (q.fill m p).received (q.fill m p).slots.length)
        (buffer.besides limits now m p ++ [q.fill m p])
  | released {p : Part} {q : Partial} : m.part? = some p →
      (buffer.expire limits now).find? m.sender p.identifier = some q → q.accepts p = true →
      (q.fill m p).isComplete = true →
      Answers limits now buffer m (.complete (q.fill m p).toMessage)
        (buffer.besides limits now m p)

theorem offer_answers {answer : Release} {buffer' : Buffer}
    (h : buffer.offer limits now m = (answer, buffer')) :
    Answers limits now buffer m answer buffer' := by
  cases hpart : m.part? with
  | none =>
    obtain ⟨rfl, rfl⟩ := Prod.mk.inj ((offer_passed limits now hpart buffer).symm.trans h)
    exact .passed hpart
  | some p =>
    cases hfind : ((buffer.expire limits now).find? m.sender p.identifier).filter (·.accepts p) with
    | none =>
      rw [offer_opened hpart hfind, settle_opened hpart] at h
      obtain ⟨rfl, rfl⟩ := Prod.mk.inj h
      exact .opened hpart hfind (leavesRoom_makeRoom limits _)
    | some q =>
      obtain ⟨hfind, haccepts⟩ := Option.filter_eq_some_iff.1 hfind
      obtain ⟨-, hidentifier⟩ := Partial.isFor_iff.1 (isFor_of_find? hfind)
      rw [offer_joined hpart hfind haccepts] at h
      cases hcomplete : (q.fill m p).isComplete with
      | true =>
        obtain ⟨rfl, rfl⟩ := Prod.mk.inj ((settle_complete hcomplete _).symm.trans h)
        exact .released hpart hfind haccepts hcomplete
      | false =>
        obtain ⟨rfl, rfl⟩ := Prod.mk.inj ((settle_awaiting hcomplete _).symm.trans h)
        exact hidentifier ▸ .joined hpart hfind haccepts hcomplete

namespace Answers

variable {answer : Release} {buffer' : Buffer}

/-- Only where a part opens a partial is there anything to choose. -/
theorem offer_eq_or_opened (h : Answers limits now buffer m answer buffer') :
    buffer.offer limits now m = (answer, buffer') ∨
      ∃ p rest, m.part? = some p ∧
        ((buffer.expire limits now).find? m.sender p.identifier).filter (·.accepts p) = none ∧
        (buffer.besides limits now m p).LeavesRoom limits rest ∧
        (answer, buffer') = settle (Partial.collecting now ⟨m, p⟩ [⟨m, p⟩]) rest := by
  cases h with
  | passed hp => exact .inl (offer_passed limits now hp buffer)
  | opened hp hfind hrest => exact .inr ⟨_, _, hp, hfind, hrest, (settle_opened hp now _).symm⟩
  | joined hp hfind haccepts hcomplete =>
    obtain ⟨-, hidentifier⟩ := Partial.isFor_iff.1 (isFor_of_find? hfind)
    rw [offer_joined hp hfind haccepts, settle_awaiting hcomplete, ← hidentifier]
    exact .inl rfl
  | released hp hfind haccepts hcomplete =>
    rw [offer_joined hp hfind haccepts, settle_complete hcomplete]
    exact .inl rfl

/-- Whichever of the oldest partials go, the answer is the same. -/
theorem fst_offer (h : Answers limits now buffer m answer buffer') :
    (buffer.offer limits now m).1 = answer := by
  rcases h.offer_eq_or_opened with heq | ⟨p, rest, hp, hfind, -, heq⟩
  · rw [heq]
  · rw [settle_opened hp] at heq
    rw [offer_opened hp hfind, settle_opened hp, (Prod.mk.inj heq).1]

/-- Where no two partials were opened at the same time, there is nothing to choose. -/
theorem offer_eq (h : Answers limits now buffer m answer buffer')
    (hnodup : (buffer.map (·.opened)).Nodup) : buffer.offer limits now m = (answer, buffer') := by
  rcases h.offer_eq_or_opened with heq | ⟨p, rest, hp, hfind, hrest, heq⟩
  · exact heq
  · have hbesides : ((buffer.besides limits now m p).map (·.opened)).Nodup :=
      hnodup.sublist ((besides_sublist limits now m p buffer).map _)
    rw [offer_opened hp hfind, ← hrest.eq_makeRoom hbesides, heq]

end Answers

end Buffer

end SecureInbox
