import SecureInbox.Proofs.Part.Collect

/-!
# Partials of one split message

What a partial holds when nothing arrives for it but the parts of one split
message (`Arrival.Brings`), in any order and any number of times: it takes in
every one of them, counts the different ones, and leaves with the whole message
once none is missing (`Part.IsSplit.toMessage_collecting`). Offering one more of
them comes to filling one more slot (`Part.IsSplit.offer_eq_settle`).
-/

namespace SecureInbox

open Arrival (latest?)

namespace Arrival

/-- A sender's message brings one of these parts. -/
structure Brings (sender : String) (parts : List Part) (a : Arrival) : Prop where
  sender : a.message.sender = sender
  part? : a.message.part? = some a.part
  mem : a.part ∈ parts

/-- No index below `n` is missing. -/
def Covers (n : Nat) (arrivals : List Arrival) : Prop :=
  ∀ i < n, ∃ a ∈ arrivals, a.part.index.toNat = i

/-- The indices that arrived, without repetition. -/
def indices (arrivals : List Arrival) : List Nat :=
  (arrivals.map (·.part.index.toNat)).dedup

theorem Covers.exists_latest? {n : Nat} {arrivals : List Arrival} (h : Covers n arrivals) {i : Nat}
    (hi : i < n) : ∃ a, latest? i arrivals = some a :=
  Option.isSome_iff_exists.1 (isSome_latest?.2 (h i hi))

end Arrival

/-- The partial that collects these arrivals, opened by the first of them. -/
def Partial.gathered? (opened : Nat) : List Arrival → Option Partial
  | [] => none
  | a :: rest => some (collecting opened a (a :: rest))

/-- A part joins those that were gathered before it. -/
theorem Buffer.offer_gathered {limits : Limits} {now opened : Nat} {buffer : Buffer}
    {done : List Arrival} {a : Arrival} (ha : a.message.part? = some a.part)
    (h : buffer.find? a.message.sender a.part.identifier = Partial.gathered? opened done)
    (hopened : done = [] → opened = now)
    (haccepts : ∀ q, Partial.gathered? opened done = some q →
      q.isAlive limits now = true ∧ q.accepts a.part = true) :
    ∃ q rest, Partial.gathered? opened (done ++ [a]) = some q ∧
      rest.IsFree a.message.sender a.part.identifier ∧
        buffer.offer limits now a.message = settle q rest := by
  have hbesides : (buffer.besides limits now a.message a.part).IsFree a.message.sender
      a.part.identifier := isFree_others
  -- The first part finds no partial, not even after the expired ones are gone, and
  -- opens one; any other finds that of the parts before it.
  cases done with
  | nil =>
    have hfree : (buffer.expire limits now).IsFree a.message.sender a.part.identifier :=
      IsFree.of_subset h fun q hq => (mem_of_mem_expire hq).1
    have hrest := leavesRoom_makeRoom limits (buffer.besides limits now a.message a.part)
    rw [hopened rfl]
    refine ⟨_, _, rfl, hbesides.of_subset hrest.sublist.subset, ?_⟩
    exact offer_opened ha (by rw [hfree, Option.filter_none])
  | cons b rest =>
    obtain ⟨halive, haccepts⟩ := haccepts _ rfl
    refine ⟨_, _, rfl, hbesides, ?_⟩
    rw [offer_joined ha (find?_expire h halive) haccepts, Partial.fill_collecting]
    rfl

namespace Part.IsSplit

variable {parts : List Part} {lead sender : String} {version identifier : UInt8} {data : Bytes}
  {arrivals : List Arrival} {a b : Arrival} {opened : Nat}

theorem index_lt (h : IsSplit parts lead version identifier data) {p : Part} (hp : p ∈ parts) :
    p.index.toNat < parts.length := by
  obtain ⟨i, hi⟩ := List.mem_iff_getElem?.1 hp
  rw [h.index_eq hi]
  exact (List.getElem?_eq_some_iff.1 hi).1

/-- The index of a part says where it stands. -/
theorem getElem?_index (h : IsSplit parts lead version identifier data) {p : Part}
    (hp : p ∈ parts) : parts[p.index.toNat]? = some p := by
  obtain ⟨i, hi⟩ := List.mem_iff_getElem?.1 hp
  rwa [h.index_eq hi]

/-! ## Partials of these parts -/

theorem accepts_collecting (h : IsSplit parts lead version identifier data)
    (ha : a.Brings sender parts) (hb : b.Brings sender parts) :
    (Partial.collecting opened a arrivals).accepts b.part = true := by
  refine Partial.accepts_collecting.2 ⟨?_, ?_, ?_⟩
  · rw [h.count_eq _ ha.mem, h.count_eq _ hb.mem]
  · rw [h.lead_eq _ ha.mem, h.lead_eq _ hb.mem]
  · rw [h.version_eq _ ha.mem, h.version_eq _ hb.mem]

theorem isFor_collecting (h : IsSplit parts lead version identifier data)
    (ha : a.Brings sender parts) :
    (Partial.collecting opened a arrivals).isFor sender identifier = true :=
  Partial.isFor_iff.2 ⟨ha.sender, h.identifier_eq _ ha.mem⟩

theorem length_slots_collecting (h : IsSplit parts lead version identifier data)
    (ha : a.Brings sender parts) :
    (Partial.collecting opened a arrivals).slots.length = parts.length := by
  rw [Partial.length_slots_collecting, h.count_eq _ ha.mem]

theorem received_collecting (h : IsSplit parts lead version identifier data)
    (ha : a.Brings sender parts) (harrivals : ∀ b ∈ arrivals, b.Brings sender parts) :
    (Partial.collecting opened a arrivals).received = (Arrival.indices arrivals).length := by
  refine Partial.received_collecting fun b hb => ?_
  rw [h.count_eq _ ha.mem]
  exact h.index_lt (harrivals b hb).mem

theorem isComplete_collecting (h : IsSplit parts lead version identifier data)
    (ha : a.Brings sender parts) :
    (Partial.collecting opened a arrivals).isComplete = true ↔
      Arrival.Covers parts.length arrivals := by
  simp only [Partial.isComplete_collecting, h.count_eq _ ha.mem, ← Option.isSome_iff_exists,
    Arrival.isSome_latest?, Arrival.Covers]

/-- When no index is missing, the latest arrivals bring the parts in order. -/
theorem map_chosen (h : IsSplit parts lead version identifier data)
    (harrivals : ∀ b ∈ arrivals, b.Brings sender parts)
    (hcovers : Arrival.Covers parts.length arrivals) :
    (Arrival.chosen parts.length arrivals).map (·.part) = parts := by
  obtain ⟨hlength, hchosen⟩ := Arrival.chosen_spec fun _ hi => hcovers.exists_latest? hi
  refine List.ext_getElem (by rw [List.length_map, hlength]) fun i _ hi => ?_
  obtain ⟨a, ha⟩ := hcovers.exists_latest? hi
  have hpart := h.getElem?_index (harrivals a (Arrival.mem_of_latest? ha)).mem
  rw [Arrival.index_of_latest? ha, List.getElem?_eq_getElem hi] at hpart
  rw [List.getElem_map, (List.getElem_eq_iff _).2 (hchosen.2 ⟨hi, ha⟩), Option.some.inj hpart]

/-- When no index is missing, the partial leaves as the message that was split. -/
theorem toMessage_collecting (h : IsSplit parts lead version identifier data)
    (ha : a.Brings sender parts) (harrivals : ∀ b ∈ arrivals, b.Brings sender parts)
    (hcovers : Arrival.Covers parts.length arrivals) {zeroth : Arrival}
    (hzeroth : latest? 0 arrivals = some zeroth) :
    (Partial.collecting opened a arrivals).toMessage =
      Message.plain sender (Wire.encodeBody (Wire.kindOfLead lead) (version :: data))
        zeroth.message.timestamp := by
  obtain ⟨hlength, hchosen⟩ := Arrival.chosen_spec fun _ hi => hcovers.exists_latest? hi
  have hlatest : ∀ i < (Arrival.chosen parts.length arrivals).length,
      latest? i arrivals = (Arrival.chosen parts.length arrivals)[i]? := by
    intro i hi
    obtain ⟨b, hb⟩ := hcovers.exists_latest? (hlength ▸ hi)
    rw [hb, hchosen.2 ⟨hlength ▸ hi, hb⟩]
  have hhead : (Arrival.chosen parts.length arrivals)[0]? = some zeroth :=
    hchosen.2 ⟨h.length_pos, hzeroth⟩
  have hdata : (Arrival.chosen parts.length arrivals).flatMap (·.part.chunk) = data :=
    calc (Arrival.chosen parts.length arrivals).flatMap (·.part.chunk)
        = ((Arrival.chosen parts.length arrivals).map (·.part)).flatMap (·.chunk) :=
          (List.flatMap_map ..).symm
      _ = data := by rw [h.map_chosen harrivals hcovers, h.data_eq]
  rw [Partial.toMessage_collecting (by rw [hlength, h.count_eq _ ha.mem]) hlatest hhead, hdata,
    ha.sender, h.lead_eq _ ha.mem, h.version_eq _ ha.mem]

/-! ## One more part -/

variable {limits : Limits} {now : Nat} {buffer : Buffer} {done : List Arrival}

/-- A part is put into the partial of those before it. -/
theorem offer_eq_settle (h : IsSplit parts lead version identifier data)
    (ha : a.Brings sender parts) (hdone : ∀ b ∈ done, b.Brings sender parts)
    (hgathered : buffer.find? sender identifier = Partial.gathered? opened done)
    (hopened : done = [] → opened = now)
    (halive : done ≠ [] → now - opened < limits.expiry.nanoseconds) :
    ∃ b rest, b.Brings sender parts ∧ rest.IsFree sender identifier ∧
      Partial.gathered? opened (done ++ [a]) =
        some (Partial.collecting opened b (done ++ [a])) ∧
      buffer.offer limits now a.message =
        Buffer.settle (Partial.collecting opened b (done ++ [a])) rest := by
  have haccepts : ∀ q, Partial.gathered? opened done = some q →
      q.isAlive limits now = true ∧ q.accepts a.part = true := by
    intro q hq
    cases done with
    | nil => exact nomatch hq
    | cons b done =>
      cases hq
      exact ⟨decide_eq_true (halive (List.cons_ne_nil b done)),
        h.accepts_collecting (hdone b List.mem_cons_self) ha⟩
  rw [← ha.sender, ← h.identifier_eq _ ha.mem] at hgathered
  obtain ⟨q, rest, hq, hfree, hoffer⟩ :=
    Buffer.offer_gathered ha.part? hgathered hopened haccepts
  rw [ha.sender, h.identifier_eq _ ha.mem] at hfree
  cases done with
  | nil =>
    cases hq
    exact ⟨a, rest, ha, hfree, rfl, hoffer⟩
  | cons b done =>
    cases hq
    exact ⟨b, rest, hdone b List.mem_cons_self, hfree, rfl, hoffer⟩

/-- While a part is missing, the partial stays and the answer is how many parts
    arrived. -/
theorem offer_awaiting (h : IsSplit parts lead version identifier data)
    (ha : a.Brings sender parts) (hdone : ∀ b ∈ done, b.Brings sender parts)
    (hgathered : buffer.find? sender identifier = Partial.gathered? opened done)
    (hopened : done = [] → opened = now)
    (halive : done ≠ [] → now - opened < limits.expiry.nanoseconds)
    (hmissing : ¬Arrival.Covers parts.length (done ++ [a])) :
    ∃ buffer', buffer.offer limits now a.message =
        (.awaiting identifier (Arrival.indices (done ++ [a])).length parts.length, buffer') ∧
      buffer'.find? sender identifier = Partial.gathered? opened (done ++ [a]) := by
  obtain ⟨b, rest, hb, hfree, hq, hoffer⟩ := h.offer_eq_settle ha hdone hgathered hopened halive
  have hall : ∀ c ∈ done ++ [a], c.Brings sender parts := by
    simpa [or_imp, forall_and] using And.intro hdone ha
  have hincomplete : (Partial.collecting opened b (done ++ [a])).isComplete = false :=
    Bool.eq_false_iff.2 fun hcomplete => hmissing ((h.isComplete_collecting hb).1 hcomplete)
  have hfor : (Partial.collecting opened b (done ++ [a])).isFor sender identifier = true :=
    h.isFor_collecting hb
  rw [Buffer.settle_awaiting hincomplete, h.received_collecting hb hall,
    h.length_slots_collecting hb, (Partial.isFor_iff.1 hfor).2] at hoffer
  exact ⟨_, hoffer, hq ▸ hfree.find?_concat hfor⟩

/-- The part that was missing gives back the message. -/
theorem offer_complete (h : IsSplit parts lead version identifier data)
    (ha : a.Brings sender parts) (hdone : ∀ b ∈ done, b.Brings sender parts)
    (hgathered : buffer.find? sender identifier = Partial.gathered? opened done)
    (hopened : done = [] → opened = now)
    (halive : done ≠ [] → now - opened < limits.expiry.nanoseconds)
    (hcovers : Arrival.Covers parts.length (done ++ [a])) {zeroth : Arrival}
    (hzeroth : latest? 0 (done ++ [a]) = some zeroth) :
    ∃ buffer', buffer.offer limits now a.message =
        (.complete (Message.plain sender (Wire.encodeBody (Wire.kindOfLead lead) (version :: data))
          zeroth.message.timestamp), buffer') ∧
      buffer'.IsFree sender identifier := by
  obtain ⟨b, rest, hb, hfree, -, hoffer⟩ := h.offer_eq_settle ha hdone hgathered hopened halive
  have hall : ∀ c ∈ done ++ [a], c.Brings sender parts := by
    simpa [or_imp, forall_and] using And.intro hdone ha
  rw [Buffer.settle_complete ((h.isComplete_collecting hb).2 hcovers),
    h.toMessage_collecting hb hall hcovers hzeroth] at hoffer
  exact ⟨rest, hoffer, hfree⟩

end Part.IsSplit

end SecureInbox
