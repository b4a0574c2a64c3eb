import Mathlib.Tactic.Choose
import SecureInbox.Proofs.Part.History

/-!
# Where joined messages come from

A whole message that the buffer gives back for a part is made of parts that were
really offered, each the latest with its index (`JoinsAt.isSource`). From the first
of them on, nothing came between: no call for the same sender and identifier gave
back a message or disagreed with the others (`JoinsAt.undisturbed`), and the
first of them is younger than the limit of age (`JoinsAt.young`). Hence no call
is the source of two chunks (`History.releases_soundly`).

Calls are told apart by their position in the history.
-/

namespace SecureInbox

/-- The parts belong to the same message, as far as their envelopes tell. -/
structure Part.IsSibling (p p' : Part) : Prop where
  lead : p.lead = p'.lead
  version : p.version = p'.version
  identifier : p.identifier = p'.identifier
  count : p.count = p'.count

/-- The arrival is part `i` of the message from `sender` that `p` belongs to. -/
structure Arrival.IsPartOf (a : Arrival) (sender : String) (p : Part) (i : Nat) : Prop where
  part? : a.message.part? = some a.part
  sender : a.message.sender = sender
  sibling : a.part.IsSibling p
  index : a.part.index.toNat = i

/-- Of the calls up to position `j`, the one at `k` is the latest that offers
    part `i` of the message. It is the arrival `a`. -/
structure IsSource (calls : List Call) (j : Nat) (sender : String) (p : Part) (i k : Nat)
    (a : Arrival) : Prop where
  le : k ≤ j
  call : ∃ c, calls[k]? = some c ∧ c.message = a.message
  isPartOf : a.IsPartOf sender p i
  latest : ∀ {k' : Nat} {c : Call} {b : Arrival}, k < k' → k' ≤ j → calls[k']? = some c →
    c.message = b.message → ¬b.IsPartOf sender p i

/-- The call at position `j` offers the part `p`, one of several, and gives back
    the message `m`. -/
def ReleasesAt (calls : List Call) (j : Nat) (p : Part) (m : Message) : Prop :=
  ∃ c, calls[j]? = some c ∧ c.message.part? = some p ∧ c.answer = .complete m

/-- The message given back at position `j` is joined from the arrivals of the
    calls at the positions `source i`. -/
structure JoinsAt (limits : Limits) (calls : List Call) (j : Nat) (p : Part) (m : Message)
    (source : Nat → Nat) (arrival : Nat → Arrival) : Prop where
  /-- Every chunk has a source. -/
  isSource : ∀ i < p.count.toNat, IsSource calls j m.sender p i (source i) (arrival i)
  /-- The message is plain, without flags, and made of the chunks in order. -/
  message_eq : m = Message.plain m.sender
    (Wire.encodeBody (Wire.kindOfLead p.lead)
      (p.version :: (List.range p.count.toNat).flatMap fun i => (arrival i).part.chunk))
    (arrival 0).message.timestamp
  /-- After a source, no call for the sender and the identifier disagrees or
      gives back a message. -/
  undisturbed : ∀ {i k : Nat} {c : Call} {p' : Part}, i < p.count.toNat → source i ≤ k → k < j →
    calls[k]? = some c → c.message.sender = m.sender → c.message.part? = some p' →
      p'.identifier = p.identifier → p'.IsSibling p ∧ ∀ whole, c.answer ≠ .complete whole
  /-- No source has reached the limit of age. -/
  young : ∀ {i : Nat} {c c' : Call}, i < p.count.toNat → calls[source i]? = some c →
    calls[j]? = some c' → c'.time < c.time + limits.expiry.nanoseconds

/-! ## Positions -/

section

variable {calls : List Call} {j k : Nat} {sender : String} {identifier : UInt8} {p : Part} {i : Nat}
  {a b : Arrival}

/-- A chunk has one source only. -/
theorem IsSource.position_unique {k' : Nat} (h : IsSource calls j sender p i k a)
    (h' : IsSource calls j sender p i k' b) : k = k' := by
  obtain ⟨c, hc, hmessage⟩ := h.call
  obtain ⟨c', hc', hmessage'⟩ := h'.call
  rcases Nat.lt_trichotomy k k' with hlt | rfl | hlt
  · exact absurd h'.isPartOf (h.latest hlt h'.le hc' hmessage')
  · rfl
  · exact absurd h.isPartOf (h'.latest hlt h.le hc hmessage)

/-- A call is one arrival only. -/
theorem IsSource.arrival_eq {j' i' : Nat} {sender' : String} {p' : Part}
    (h : IsSource calls j sender p i k a) (h' : IsSource calls j' sender' p' i' k b) :
    a.message = b.message ∧ a.part = b.part := by
  obtain ⟨c, hc, hmessage⟩ := h.call
  obtain ⟨c', hc', hmessage'⟩ := h'.call
  cases hc.symm.trans hc'
  have hab := hmessage.symm.trans hmessage'
  refine ⟨hab, Option.some.inj ?_⟩
  rw [← h.isPartOf.part?, ← h'.isPartOf.part?, hab]

/-- The latest arrival came with a call, and calls after that brought none with
    its index. -/
theorem exists_call_of_latest? (h : Arrival.latest? i (arrivalsFor sender identifier calls) = some a) :
    ∃ before c after, calls = before ++ c :: after ∧
      c.message.arrivalFor? sender identifier = some a ∧
        ∀ b ∈ arrivalsFor sender identifier after, b.part.index.toNat ≠ i := by
  obtain ⟨-, earlier, later, harrivals, hlater⟩ := Arrival.latest?_eq_some.1 h
  obtain ⟨calls₁, calls₂, rfl, -, h₂⟩ := List.filterMap_eq_append_iff.1 harrivals
  obtain ⟨before, c, after, rfl, -, hc, rfl⟩ := List.filterMap_eq_cons_iff.1 h₂
  exact ⟨calls₁ ++ before, c, after, by simp, hc, hlater⟩

/-- The latest arrival of the last calls is the source of its chunk. -/
theorem exists_source {before last : List Call} (hcalls : calls.take (j + 1) = before ++ last)
    (ha : Arrival.latest? i (arrivalsFor sender identifier last) = some a)
    (hpart : a.IsPartOf sender p i) (hidentifier : p.identifier = identifier) :
    ∃ k, before.length ≤ k ∧ IsSource calls j sender p i k a ∧
      ∃ c ∈ last, calls[k]? = some c := by
  obtain ⟨earlier, c, after, rfl, hc, hafter⟩ := exists_call_of_latest? ha
  obtain ⟨hmessage, -, -, -⟩ := Message.arrivalFor?_eq_some.1 hc
  have hlength := congrArg List.length hcalls
  simp only [List.length_take, List.length_append, List.length_cons] at hlength
  have hget : ∀ {k' : Nat}, k' ≤ j → calls[k']? = ((before ++ earlier) ++ c :: after)[k']? := by
    intro k' hk'
    rw [List.append_assoc, ← hcalls, List.getElem?_take_of_lt (Nat.lt_succ_of_le hk')]
  have hk : (before ++ earlier).length ≤ j := by
    simp only [List.length_append]
    omega
  have hcall : calls[(before ++ earlier).length]? = some c := by
    rw [hget hk, List.getElem?_append_right (Nat.le_refl _), Nat.sub_self]
    rfl
  refine ⟨_, List.length_append ▸ Nat.le_add_right _ _,
    ⟨hk, ⟨c, hcall, hmessage.symm⟩, hpart, ?_⟩, c, by simp, hcall⟩
  intro k' c' b hlt hle hc' hmessage' hb
  -- the call at `k'` is one of those after the source
  have hmem : c' ∈ after := by
    rw [hget hle, List.getElem?_append_right (Nat.le_of_lt hlt)] at hc'
    obtain ⟨n, hn⟩ := Nat.exists_eq_succ_of_ne_zero (Nat.sub_ne_zero_of_lt hlt)
    rw [hn, List.getElem?_cons_succ] at hc'
    exact List.mem_of_getElem? hc'
  refine hafter b (List.mem_filterMap.2 ⟨c', hmem, Message.arrivalFor?_eq_some.2 ?_⟩) hb.index
  exact ⟨hmessage'.symm, hmessage' ▸ hb.part?, hmessage' ▸ hb.sender,
    hb.sibling.identifier.trans hidentifier⟩

end

/-! ## Releases -/

namespace Partial

variable {q : Partial} {p p' : Part}

/-- Parts that one partial accepts belong to the same message. -/
theorem isSibling_of_accepts (h : q.accepts p = true) (h' : q.accepts p' = true)
    (hidentifier : p.identifier = p'.identifier) : p.IsSibling p' := by
  simp only [accepts, Bool.and_eq_true, beq_iff_eq] at h h'
  obtain ⟨⟨hlength, hlead⟩, hversion⟩ := h
  obtain ⟨⟨hlength', hlead'⟩, hversion'⟩ := h'
  exact ⟨hlead.symm.trans hlead', hversion.symm.trans hversion', hidentifier,
    UInt8.toNat_inj.1 (hlength.symm.trans hlength')⟩

end Partial

namespace Partial.IsBuiltBy

variable {q : Partial} {first c : Call} {since : List Call} {p : Part} {a : Arrival}

/-- The arrivals of the calls that built a partial are parts of one message, and
    so is one more part that it accepts. -/
theorem isPartOf (h : q.IsBuiltBy first since) (haccepts : q.accepts p = true)
    (hp : c.message.part? = some p) (hidentifier : p.identifier = q.identifier)
    (ha : a ∈ arrivalsFor q.sender q.identifier (first :: since ++ [c])) :
    a.IsPartOf q.sender p a.part.index.toNat := by
  obtain ⟨d, hd, hda⟩ := List.mem_filterMap.1 ha
  obtain ⟨hmessage, hpart, hsender, hidentifier'⟩ := Message.arrivalFor?_eq_some.1 hda
  have hsibling : a.part.IsSibling p := by
    rcases List.mem_append.1 hd with hd | hd
    · exact isSibling_of_accepts (h.undisturbed d hd a hda).1 haccepts
        (hidentifier'.trans hidentifier.symm)
    · cases List.mem_singleton.1 hd
      cases hpart.symm.trans hp
      exact ⟨rfl, rfl, rfl, rfl⟩
  exact ⟨hmessage ▸ hpart, hmessage ▸ hsender, hsibling, rfl⟩

end Partial.IsBuiltBy

/-- At position `j` the call `c` fills the partial `q`, which the calls from `first`
    to there have built, and `m` is the message it leaves as. -/
structure JoinedFrom (limits : Limits) (calls : List Call) (j : Nat) (p : Part) (m : Message)
    (q : Partial) (before : List Call) (first : Call) (since : List Call) (c : Call) : Prop where
  call : calls[j]? = some c
  part? : c.message.part? = some p
  calls_eq : calls.take j = before ++ first :: since
  isBuiltBy : q.IsBuiltBy first since
  isFor : q.isFor c.message.sender p.identifier = true
  isAlive : q.isAlive limits c.time = true
  accepts : q.accepts p = true
  isComplete : (q.fill c.message p).isComplete = true
  message_eq : m = (q.fill c.message p).toMessage

/-- A message given back for a part is joined from a partial. -/
theorem History.exists_joinedFrom {limits : Limits} {calls : List Call} {buffer : Buffer} {j : Nat}
    {p : Part} {m : Message} (h : History limits calls buffer) (hr : ReleasesAt calls j p m) :
    ∃ q before first since c, JoinedFrom limits calls j p m q before first since c := by
  obtain ⟨c, hj, hp, hanswer⟩ := hr
  obtain ⟨b, b', hb, hanswers⟩ := h.at hj
  generalize c.answer = answer at hanswer hanswers
  cases hanswers with
  | passed hnone => exact nomatch hnone.symm.trans hp
  | opened | joined => exact nomatch hanswer
  | @released p' q hp' hfind haccepts hcomplete =>
    cases hp'.symm.trans hp
    cases hanswer
    obtain ⟨hq, halive⟩ := Buffer.mem_of_mem_expire (Buffer.mem_of_find? hfind)
    obtain ⟨first, since, ⟨before, hcalls⟩, hbuilt⟩ := hb.isBuiltBy q hq
    exact ⟨q, before, first, since, c, hj, hp, hcalls.symm, hbuilt, Buffer.isFor_of_find? hfind,
      halive, haccepts, hcomplete, rfl⟩

namespace JoinedFrom

variable {limits : Limits} {calls : List Call} {j : Nat} {p : Part} {m : Message} {q : Partial}
  {before : List Call} {first : Call} {since : List Call} {c : Call}

theorem partial_sender_eq (h : JoinedFrom limits calls j p m q before first since c) :
    q.sender = m.sender := by
  rw [h.message_eq]
  rfl

theorem sender_eq (h : JoinedFrom limits calls j p m q before first since c) :
    c.message.sender = m.sender :=
  (Partial.isFor_iff.1 h.isFor).1.symm.trans h.partial_sender_eq

theorem identifier_eq (h : JoinedFrom limits calls j p m q before first since c) :
    q.identifier = p.identifier :=
  (Partial.isFor_iff.1 h.isFor).2

theorem calls_eq' (h : JoinedFrom limits calls j p m q before first since c) :
    calls.take (j + 1) = before ++ (first :: since ++ [c]) := by
  rw [List.take_add_one, h.call, h.calls_eq, List.append_assoc]
  rfl

theorem arrivalFor?_eq (h : JoinedFrom limits calls j p m q before first since c) :
    c.message.arrivalFor? q.sender q.identifier = some ⟨c.message, p⟩ := by
  obtain ⟨hsender, hidentifier⟩ := Partial.isFor_iff.1 h.isFor
  rw [hsender, hidentifier, Message.arrivalFor?_self h.part?]

/-- The filled partial by the arrivals it collects, each with an index. -/
theorem fill_eq (h : JoinedFrom limits calls j p m q before first since c) :
    ∃ a, a.IsPartOf q.sender p a.part.index.toNat ∧
      q.fill c.message p =
        Partial.collecting first.time a
          (arrivalsFor q.sender q.identifier (first :: since ++ [c])) := by
  obtain ⟨a, ha, hfill⟩ := h.isBuiltBy.fill_eq h.arrivalFor?_eq
  refine ⟨a, h.isBuiltBy.isPartOf h.accepts h.part? h.identifier_eq.symm ?_, hfill⟩
  exact List.mem_filterMap.2 ⟨first, List.mem_cons_self, ha⟩

/-- For every index there is a latest arrival, and its call is the source. -/
theorem exists_source (h : JoinedFrom limits calls j p m q before first since c) {i : Nat}
    (hi : i < p.count.toNat) :
    ∃ k a, Arrival.latest? i (arrivalsFor q.sender q.identifier (first :: since ++ [c])) = some a ∧
      before.length ≤ k ∧ IsSource calls j m.sender p i k a ∧
        ∃ d ∈ first :: since ++ [c], calls[k]? = some d := by
  obtain ⟨first', hfirst', hfill⟩ := h.fill_eq
  rw [← hfirst'.sibling.count] at hi
  obtain ⟨a, ha⟩ := Partial.isComplete_collecting.1 (hfill ▸ h.isComplete) i hi
  have hpart := h.isBuiltBy.isPartOf h.accepts h.part? h.identifier_eq.symm
    (Arrival.mem_of_latest? ha)
  rw [Arrival.index_of_latest? ha] at hpart
  obtain ⟨k, hk⟩ := SecureInbox.exists_source h.calls_eq' ha hpart h.identifier_eq.symm
  rw [h.partial_sender_eq] at hk
  exact ⟨k, a, ha, hk⟩

/-- The joined message, by the latest arrival for every index. -/
theorem message_eq_plain (h : JoinedFrom limits calls j p m q before first since c)
    {arrival : Nat → Arrival}
    (harrival : ∀ i < p.count.toNat,
      Arrival.latest? i (arrivalsFor q.sender q.identifier (first :: since ++ [c])) =
        some (arrival i)) :
    m = Message.plain m.sender
      (Wire.encodeBody (Wire.kindOfLead p.lead)
        (p.version :: (List.range p.count.toNat).flatMap fun i => (arrival i).part.chunk))
      (arrival 0).message.timestamp := by
  obtain ⟨first', hfirst', hfill⟩ := h.fill_eq
  have hpos : 0 < p.count.toNat := Nat.lt_trans Nat.zero_lt_one (Message.one_lt_count h.part?)
  have hlength : ((List.range p.count.toNat).map arrival).length = first'.part.count.toNat := by
    rw [List.length_map, List.length_range, hfirst'.sibling.count]
  have hlatest : ∀ i < ((List.range p.count.toNat).map arrival).length,
      Arrival.latest? i (arrivalsFor q.sender q.identifier (first :: since ++ [c])) =
        ((List.range p.count.toNat).map arrival)[i]? := by
    intro i hi
    rw [List.length_map, List.length_range] at hi
    rw [harrival i hi, List.getElem?_map, List.getElem?_range hi, Option.map_some]
  have hhead : ((List.range p.count.toNat).map arrival)[0]? = some (arrival 0) := by
    rw [List.getElem?_map, List.getElem?_range hpos, Option.map_some]
  calc m = (Partial.collecting first.time first'
            (arrivalsFor q.sender q.identifier (first :: since ++ [c]))).toMessage := by
        rw [h.message_eq, hfill]
    _ = Message.plain first'.message.sender
          (Wire.encodeBody (Wire.kindOfLead first'.part.lead)
            (first'.part.version ::
              ((List.range p.count.toNat).map arrival).flatMap (·.part.chunk)))
          (arrival 0).message.timestamp := Partial.toMessage_collecting hlength hlatest hhead
    _ = _ := by
        rw [hfirst'.sender, h.partial_sender_eq, hfirst'.sibling.lead, hfirst'.sibling.version,
          List.flatMap_map]

/-- Nothing for the sender and the identifier disagrees or is given back while
    the partial is built. -/
theorem undisturbed (h : JoinedFrom limits calls j p m q before first since c) {k : Nat} {d : Call}
    {p' : Part} (hk : before.length ≤ k) (hlt : k < j) (hd : calls[k]? = some d)
    (hsender : d.message.sender = m.sender) (hp' : d.message.part? = some p')
    (hidentifier : p'.identifier = p.identifier) :
    p'.IsSibling p ∧ ∀ whole, d.answer ≠ .complete whole := by
  have hmem : d ∈ first :: since := by
    rw [← List.getElem?_take_of_lt hlt, h.calls_eq, List.getElem?_append_right hk] at hd
    exact List.mem_of_getElem? hd
  obtain ⟨haccepts, hanswer⟩ := h.isBuiltBy.undisturbed d hmem ⟨d.message, p'⟩
    (Message.arrivalFor?_eq_some.2 ⟨rfl, hp', hsender.trans h.partial_sender_eq.symm,
      hidentifier.trans h.identifier_eq.symm⟩)
  exact ⟨Partial.isSibling_of_accepts haccepts h.accepts hidentifier, hanswer⟩

/-- The calls that built the partial are younger than the limit of age. -/
theorem young (h : JoinedFrom limits calls j p m q before first since c)
    (htimes : calls.Pairwise fun c c' => c.time ≤ c'.time) {d : Call}
    (hd : d ∈ first :: since ++ [c]) : c.time < d.time + limits.expiry.nanoseconds := by
  obtain ⟨first', -, hfill⟩ := h.fill_eq
  have hopened : q.opened = first.time := congrArg Partial.opened hfill
  have hlast : (first :: since ++ [c]).Pairwise fun c c' => c.time ≤ c'.time :=
    htimes.sublist ((List.sublist_append_right before _).trans
      (h.calls_eq' ▸ List.take_sublist (j + 1) calls))
  have hfirst : first.time ≤ d.time := by
    rw [List.cons_append, List.mem_cons] at hd
    rcases hd with rfl | hd
    · exact Nat.le_refl _
    · exact List.rel_of_pairwise_cons hlast hd
  have halive := h.isAlive
  simp only [Partial.isAlive, hopened, decide_eq_true_eq] at halive
  omega

theorem exists_joinsAt (h : JoinedFrom limits calls j p m q before first since c)
    (htimes : calls.Pairwise fun c c' => c.time ≤ c'.time) :
    ∃ source arrival, JoinsAt limits calls j p m source arrival := by
  -- For the choice there has to be a source for every `i`; beyond the count any
  -- will do.
  have hsource : ∀ i, ∃ k a, i < p.count.toNat →
      Arrival.latest? i (arrivalsFor q.sender q.identifier (first :: since ++ [c])) = some a ∧
        before.length ≤ k ∧ IsSource calls j m.sender p i k a ∧
          ∃ d ∈ first :: since ++ [c], calls[k]? = some d := by
    intro i
    by_cases hi : i < p.count.toNat
    · obtain ⟨k, a, hk⟩ := h.exists_source hi
      exact ⟨k, a, fun _ => hk⟩
    · exact ⟨0, ⟨c.message, p⟩, fun hlt => absurd hlt hi⟩
  choose source arrival hsource using hsource
  refine ⟨source, arrival, fun i hi => (hsource i hi).2.2.1,
    h.message_eq_plain fun i hi => (hsource i hi).1, ?_, ?_⟩
  · intro i k d p' hi hk
    exact h.undisturbed (Nat.le_trans (hsource i hi).2.1 hk)
  · intro i d c' hi hd hc'
    obtain ⟨-, -, -, d', hmem, hd'⟩ := hsource i hi
    cases hd.symm.trans hd'
    cases hc'.symm.trans h.call
    exact h.young htimes hmem

end JoinedFrom

/-! ## Soundness -/

namespace History

variable {limits : Limits} {calls : List Call} {buffer : Buffer}

/-- Of two releases the earlier one has used up its sources. -/
theorem not_isSource_of_lt (h : History limits calls buffer) {j j' i i' k : Nat} {p p' : Part}
    {m m' : Message} {a a' : Arrival} (hr : ReleasesAt calls j p m)
    (hr' : ReleasesAt calls j' p' m') (hlt : j < j') (hs : IsSource calls j m.sender p i k a) :
    ¬IsSource calls j' m'.sender p' i' k a' := by
  intro hs'
  obtain ⟨_, _, _, _, c, hjoined⟩ := h.exists_joinedFrom hr
  obtain ⟨_, _, _, _, _, hjoined'⟩ := h.exists_joinedFrom hr'
  have ha : a.message = a'.message ∧ a.part = a'.part := hs.arrival_eq hs'
  -- the source is one of the calls behind the later release
  have hi : i' < p'.count.toNat := by
    rw [← hs'.isPartOf.index, ← hs'.isPartOf.sibling.count]
    exact UInt8.lt_iff_toNat_lt.1 (Message.isWellFormed_part? hs'.isPartOf.part?).index_lt
  obtain ⟨k', b, -, hk', hsource, -⟩ := hjoined'.exists_source hi
  cases hs'.position_unique hsource
  -- and so is the earlier release
  obtain ⟨d, hd, -, hanswer⟩ := hr
  cases hd.symm.trans hjoined.call
  have hsender : c.message.sender = m'.sender := by
    rw [hjoined.sender_eq, ← hs.isPartOf.sender, ha.1, hs'.isPartOf.sender]
  have hidentifier : p.identifier = p'.identifier := by
    rw [← hs.isPartOf.sibling.identifier, ha.2, hs'.isPartOf.sibling.identifier]
  exact (hjoined'.undisturbed (Nat.le_trans hk' hs.le) hlt hjoined.call hsender hjoined.part?
    hidentifier).2 m hanswer

/-- Every message that was given back for one of several parts is joined from
    parts that were offered, and no call is the source of two chunks. -/
theorem releases_soundly (h : History limits calls buffer)
    (htimes : calls.Pairwise fun c c' => c.time ≤ c'.time) :
    (∀ {j : Nat} {p : Part} {m : Message}, ReleasesAt calls j p m →
        ∃ source arrival, JoinsAt limits calls j p m source arrival) ∧
      ∀ {j j' i i' k : Nat} {p p' : Part} {m m' : Message} {a a' : Arrival},
        ReleasesAt calls j p m → ReleasesAt calls j' p' m' →
          IsSource calls j m.sender p i k a → IsSource calls j' m'.sender p' i' k a' →
            j = j' ∧ i = i' := by
  refine ⟨fun hr => ?_, fun {j j' i i' k p p' m m' a a'} hr hr' hs hs' => ?_⟩
  · obtain ⟨_, _, _, _, _, hjoined⟩ := h.exists_joinedFrom hr
    exact hjoined.exists_joinsAt htimes
  · rcases Nat.lt_trichotomy j j' with hlt | rfl | hlt
    · exact absurd hs' (h.not_isSource_of_lt hr hr' hlt hs)
    · exact ⟨rfl, by rw [← hs.isPartOf.index, ← hs'.isPartOf.index, (hs.arrival_eq hs').2]⟩
    · exact absurd hs (h.not_isSource_of_lt hr' hr hlt hs')

/-! ## A message in two halves -/

/-- The message that brings a half. -/
def halfMessage (index b : UInt8) : Message := .plain "alice" (Part.half index b).encode 1

/-- The second half releases the message, joined from both. -/
theorem joinsAt_halves :
    ∃ calls buffer p m, History {} calls buffer ∧
      (calls.Pairwise fun c c' => c.time ≤ c'.time) ∧ ReleasesAt calls 1 p m ∧
        ∃ source arrival, JoinsAt {} calls 1 p m source arrival := by
  have hpart₀ : (halfMessage 0 10).part? = some (Part.half 0 10) := Message.part?_half (by decide) 10 _ _
  have hpart₁ : (halfMessage 1 11).part? = some (Part.half 1 11) := Message.part?_half (by decide) 11 _ _
  let q := Partial.collecting 0 ⟨halfMessage 0 10, Part.half 0 10⟩ [⟨halfMessage 0 10, Part.half 0 10⟩]
  let first : Call := { time := 0, message := halfMessage 0 10, answer := .awaiting 7 1 2 }
  let last : Call :=
    { time := 1, message := halfMessage 1 11
      answer := .complete (q.fill (halfMessage 1 11) (Part.half 1 11)).toMessage }
  have hfirst : Buffer.offer {} 0 first.message [] = (first.answer, [q]) :=
    Buffer.offer_opened hpart₀ rfl
  have hlast : Buffer.offer {} 1 last.message [q] = (last.answer, []) := by
    rw [Buffer.offer_joined hpart₁ (q := q) rfl rfl]
    rfl
  have h : History {} ([] ++ [first] ++ [last]) [] := .offer (.offer .nil hfirst) hlast
  have htimes : ([] ++ [first] ++ [last]).Pairwise fun c c' : Call => c.time ≤ c'.time := by
    simp [first, last]
  have hr : ReleasesAt ([] ++ [first] ++ [last]) 1 (Part.half 1 11) _ := ⟨last, rfl, hpart₁, rfl⟩
  exact ⟨_, _, _, _, h, htimes, hr, (h.releases_soundly htimes).1 hr⟩

end History

end SecureInbox
