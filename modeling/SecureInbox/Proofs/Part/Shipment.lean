import SecureInbox.Proofs.Part.Supply

/-!
# Offering all parts of a message

A *shipment* is a message split into parts, each brought by a message of its own
and in any order. Offered one after the other to a buffer that has none of them
yet, all but the last are kept in one partial (`IsShipment.offer_awaiting`), and
the last one gives back the whole message (`IsShipment.offer_last`).

The order matters neither for the payload nor for the timestamp: chunks go by
their indices, and the timestamp is that of the part with index 0.
-/

namespace SecureInbox

open Arrival (latest?)

/-- The arrivals are the parts of one message from a sender; `ordered` has them
    in the order of their indices. -/
structure IsShipment (sender lead : String) (version identifier : UInt8) (data : Bytes)
    (ordered arrivals : List Arrival) : Prop where
  split : Part.IsSplit (ordered.map (·.part)) lead version identifier data
  perm : arrivals.Perm ordered
  parse : ∀ a ∈ ordered, Part.parse a.message.body = .ok a.part
  sender : ∀ a ∈ ordered, a.message.sender = sender

namespace IsShipment

variable {sender lead : String} {version identifier : UInt8} {data : Bytes}
  {ordered arrivals : List Arrival}

theorem length_eq (h : IsShipment sender lead version identifier data ordered arrivals) :
    arrivals.length = ordered.length :=
  h.perm.length_eq

theorem mem_parts (h : IsShipment sender lead version identifier data ordered arrivals)
    {a : Arrival} (ha : a ∈ arrivals) : a.part ∈ ordered.map (·.part) :=
  List.mem_map_of_mem (h.perm.mem_iff.1 ha)

theorem count_eq (h : IsShipment sender lead version identifier data ordered arrivals)
    {a : Arrival} (ha : a ∈ arrivals) : a.part.count.toNat = ordered.length := by
  rw [h.split.count_eq a.part (h.mem_parts ha), List.length_map]

/-- No index comes twice. -/
theorem nodup_index (h : IsShipment sender lead version identifier data ordered arrivals) :
    (arrivals.map (·.part.index.toNat)).Nodup := by
  have hindex := h.split.map_index
  rw [List.map_map] at hindex
  refine (h.perm.map _).nodup_iff.2 ?_
  rw [show ordered.map (·.part.index.toNat) = _ from hindex]
  exact List.nodup_range

/-- Of several parts, each is brought by the sender. -/
theorem brings (h : IsShipment sender lead version identifier data ordered arrivals)
    (hmany : 1 < ordered.length) {a : Arrival} (ha : a ∈ arrivals) :
    a.Brings sender (ordered.map (·.part)) where
  sender := h.sender a (h.perm.mem_iff.1 ha)
  part? := by
    refine Message.part?_eq_some.2 ⟨h.parse a (h.perm.mem_iff.1 ha), fun hone => ?_⟩
    have hcount := h.count_eq ha
    rw [hone, UInt8.toNat_one] at hcount
    omega
  mem := h.mem_parts ha

/-- No index comes twice, so as many indices arrived as arrivals. -/
theorem length_indices (h : IsShipment sender lead version identifier data ordered arrivals)
    {done : List Arrival} (hdone : done <+: arrivals) :
    (Arrival.indices done).length = done.length := by
  have hnodup : (done.map (·.part.index.toNat)).Nodup := h.nodup_index.sublist (hdone.sublist.map _)
  rw [Arrival.indices, hnodup.dedup, List.length_map]

/-- Every arrival has its index, which is less than the number of arrivals. -/
theorem latest?_eq (h : IsShipment sender lead version identifier data ordered arrivals) {i : Nat}
    (hi : i < ordered.length) : latest? i arrivals = some ordered[i] := by
  have hindex : ordered[i].part.index.toNat = i :=
    h.split.index_eq (by rw [List.getElem?_map, List.getElem?_eq_getElem hi]; rfl)
  rw [← Arrival.latest?_of_nodup h.nodup_index (h.perm.mem_iff.2 (List.getElem_mem hi)), hindex]

theorem covers (h : IsShipment sender lead version identifier data ordered arrivals) :
    Arrival.Covers ordered.length arrivals := fun i hi =>
  Arrival.isSome_latest?.1 (by rw [h.latest?_eq hi, Option.isSome_some])

variable {limits : Limits} {now opened : Nat} {buffer : Buffer} {done todo : List Arrival}
  {a : Arrival}

/-- As long as parts are missing, so is an index. -/
theorem not_covers
    (h : IsShipment sender lead version identifier data ordered (done ++ a :: todo))
    (htodo : todo ≠ []) : ¬Arrival.Covers ordered.length (done ++ [a]) := by
  intro hcovers
  obtain ⟨b, todo, rfl⟩ := List.exists_cons_of_ne_nil htodo
  have hb : b ∈ done ++ a :: b :: todo := by simp
  obtain ⟨c, hc, hindex⟩ := hcovers b.part.index.toNat (by
    simpa using h.split.index_lt (h.mem_parts hb))
  -- `b` comes after those that are there, and no other has its index
  have hnodup := h.nodup_index
  rw [show done ++ a :: b :: todo = done ++ [a] ++ b :: todo by simp, List.map_append] at hnodup
  exact (List.nodup_append.1 hnodup).2.2 _ (List.mem_map_of_mem hc) _
    (List.mem_map_of_mem List.mem_cons_self) hindex

/-- Every part but the last is kept, and counted. -/
theorem offer_awaiting
    (h : IsShipment sender lead version identifier data ordered (done ++ a :: todo))
    (hgathered : buffer.find? sender identifier = Partial.gathered? opened done)
    (hopened : done = [] → opened = now)
    (halive : done ≠ [] → now - opened < limits.expiry.nanoseconds) (htodo : todo ≠ []) :
    ∃ buffer', buffer.offer limits now a.message =
        (.awaiting identifier (done.length + 1) ordered.length, buffer') ∧
      buffer'.find? sender identifier = Partial.gathered? opened (done ++ [a]) := by
  have hmany : 1 < ordered.length := by
    have hlength := h.length_eq
    have htodo := List.length_pos_iff.2 htodo
    simp only [List.length_append, List.length_cons] at hlength
    omega
  obtain ⟨buffer', hoffer, hfind⟩ := h.split.offer_awaiting (h.brings hmany (a := a) (by simp))
    (fun b hb => h.brings hmany (List.mem_append_left _ hb)) hgathered hopened halive
    (by rw [List.length_map]; exact h.not_covers htodo)
  rw [h.length_indices ⟨todo, by simp⟩, List.length_append, List.length_singleton,
    List.length_map] at hoffer
  exact ⟨buffer', hoffer, hfind⟩

/-- The only part there is passes by the buffer. -/
theorem offer_lone (h : IsShipment sender lead version identifier data ordered [a]) :
    buffer.offer limits now a.message =
      (.complete (Message.plain sender (Wire.encodeBody (Wire.kindOfLead lead) (version :: data))
        a.message.timestamp), buffer) := by
  have hmem : a ∈ [a] := List.mem_singleton.2 rfl
  have hpart := h.mem_parts hmem
  have hordered : ordered = [a] := List.perm_singleton.1 h.perm.symm
  have hone : a.part.count = 1 := by
    rw [← UInt8.toNat_inj, h.count_eq hmem, hordered]
    rfl
  have hdata : a.part.chunk = data := by
    have hdata := h.split.data_eq
    rwa [hordered, List.map_singleton, List.flatMap_singleton] at hdata
  simp only [Buffer.offer, h.parse a (h.perm.mem_iff.1 hmem), if_pos hone,
    h.sender a (h.perm.mem_iff.1 hmem), h.split.lead_eq _ hpart, h.split.version_eq _ hpart, hdata]

/-- The last part gives back the message. -/
theorem offer_last
    (h : IsShipment sender lead version identifier data ordered (done ++ [a]))
    (hgathered : buffer.find? sender identifier = Partial.gathered? opened done)
    (hopened : done = [] → opened = now)
    (halive : done ≠ [] → now - opened < limits.expiry.nanoseconds) {first : Arrival}
    (hfirst : ordered[0]? = some first) :
    ∃ buffer', buffer.offer limits now a.message =
        (.complete (Message.plain sender (Wire.encodeBody (Wire.kindOfLead lead) (version :: data))
          first.message.timestamp), buffer') ∧
      buffer'.IsFree sender identifier := by
  have hlength := h.length_eq
  simp only [List.length_append, List.length_singleton] at hlength
  cases done with
  | nil =>
    rw [List.nil_append] at h
    rw [List.perm_singleton.1 h.perm.symm] at hfirst
    cases hfirst
    exact ⟨buffer, h.offer_lone, hgathered⟩
  | cons d done =>
    have hmany : 1 < ordered.length := by
      rw [List.length_cons] at hlength
      omega
    obtain ⟨hpos, hzeroth⟩ := List.getElem?_eq_some_iff.1 hfirst
    refine h.split.offer_complete (h.brings hmany (a := a) (by simp))
      (fun b hb => h.brings hmany (List.mem_append_left _ hb)) hgathered hopened halive ?_ ?_
    · rw [List.length_map]
      exact h.covers
    · rw [h.latest?_eq hpos, hzeroth]

end IsShipment

end SecureInbox
