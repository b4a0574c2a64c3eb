import Mathlib.Data.List.Dedup
import SecureInbox.Part.Buffer

/-!
# Partials and what arrived for them

A partial is known by the part that opened it and by what arrived since
(`Partial.collecting`): every slot holds the chunk of the latest arrival with its
index, and the timestamp is that of the latest arrival with index 0. Filling a
slot adds one more arrival (`Partial.fill_collecting`), so nothing else is ever
in the buffer.
-/

namespace SecureInbox

/-- A message and the part it was read as. -/
structure Arrival where
  message : Message
  part : Part

namespace Arrival

/-- The latest arrival with an index. -/
def latest? (i : Nat) (arrivals : List Arrival) : Option Arrival :=
  arrivals.reverse.find? (·.part.index.toNat == i)

@[simp]
theorem latest?_nil (i : Nat) : latest? i [] = none := rfl

theorem latest?_concat (i : Nat) (arrivals : List Arrival) (a : Arrival) :
    latest? i (arrivals ++ [a]) =
      if a.part.index.toNat = i then some a else latest? i arrivals := by
  rw [latest?, List.reverse_concat]
  by_cases h : a.part.index.toNat = i
  · rw [if_pos h, List.find?_cons_of_pos (by simpa using h)]
  · rw [if_neg h, List.find?_cons_of_neg (by simpa using h), latest?]

theorem latest?_eq_none {i : Nat} {arrivals : List Arrival} :
    latest? i arrivals = none ↔ ∀ a ∈ arrivals, a.part.index.toNat ≠ i := by
  simp [latest?, List.find?_eq_none]

theorem isSome_latest? {i : Nat} {arrivals : List Arrival} :
    (latest? i arrivals).isSome = true ↔ ∃ a ∈ arrivals, a.part.index.toNat = i := by
  simp [latest?]

/-- No arrival with the index comes after the latest one. -/
theorem latest?_eq_some {i : Nat} {arrivals : List Arrival} {a : Arrival} :
    latest? i arrivals = some a ↔
      a.part.index.toNat = i ∧ ∃ before after, arrivals = before ++ a :: after ∧
        ∀ b ∈ after, b.part.index.toNat ≠ i := by
  rw [latest?, List.find?_eq_some_iff_append, beq_iff_eq]
  refine and_congr_right fun _ => ⟨?_, ?_⟩
  · rintro ⟨later, earlier, heq, hlater⟩
    refine ⟨earlier.reverse, later.reverse, ?_, fun b hb => by
      simpa using hlater b (List.mem_reverse.1 hb)⟩
    simpa using congrArg List.reverse heq
  · rintro ⟨before, after, rfl, hafter⟩
    exact ⟨after.reverse, before.reverse, by simp, fun b hb => by
      simpa using hafter b (List.mem_reverse.1 hb)⟩

theorem mem_of_latest? {i : Nat} {arrivals : List Arrival} {a : Arrival}
    (h : latest? i arrivals = some a) : a ∈ arrivals :=
  List.mem_reverse.1 (List.mem_of_find?_eq_some h)

theorem index_of_latest? {i : Nat} {arrivals : List Arrival} {a : Arrival}
    (h : latest? i arrivals = some a) : a.part.index.toNat = i :=
  (latest?_eq_some.1 h).1

/-- If no index comes twice, every arrival is the latest with its index. -/
theorem latest?_of_nodup {arrivals : List Arrival}
    (h : (arrivals.map (·.part.index.toNat)).Nodup) {a : Arrival} (ha : a ∈ arrivals) :
    latest? a.part.index.toNat arrivals = some a := by
  cases hlatest : latest? a.part.index.toNat arrivals with
  | none => exact absurd rfl (latest?_eq_none.1 hlatest a ha)
  | some b =>
    exact congrArg some
      (List.inj_on_of_nodup_map h (mem_of_latest? hlatest) ha (index_of_latest? hlatest))

/-- The latest arrivals with the indices below `n`, in order. -/
def chosen (n : Nat) (arrivals : List Arrival) : List Arrival :=
  (List.range n).filterMap (latest? · arrivals)

/-- When no index is missing, the latest arrivals stand where their indices
    say. -/
theorem chosen_spec {n : Nat} {arrivals : List Arrival}
    (h : ∀ i < n, ∃ a, latest? i arrivals = some a) :
    (chosen n arrivals).length = n ∧
      ∀ {i : Nat} {a : Arrival}, (chosen n arrivals)[i]? = some a ↔
        i < n ∧ latest? i arrivals = some a := by
  -- By induction on `n`: the arrivals for the indices below `n` fill the first `n`
  -- places, so the one for `n` comes to stand at `n`.
  induction n with
  | zero => simp [chosen]
  | succ n ih =>
    obtain ⟨hlength, hget⟩ := ih fun i hi => h i (Nat.lt_succ_of_lt hi)
    obtain ⟨last, hlast⟩ := h n (Nat.lt_succ_self n)
    have hchosen : chosen (n + 1) arrivals = chosen n arrivals ++ [last] := by
      simp [chosen, List.range_succ, hlast]
    refine ⟨by rw [hchosen, List.length_append, hlength, List.length_singleton], fun {i a} => ?_⟩
    rw [hchosen, List.getElem?_append, hlength]
    by_cases hi : i < n
    · rw [if_pos hi, hget]
      exact and_congr_left fun _ => iff_of_true hi (Nat.lt_succ_of_lt hi)
    · rw [if_neg hi, List.getElem?_singleton]
      by_cases hn : i = n
      · subst hn
        simp [hlast]
      · have hpos : i - n ≠ 0 := by omega
        have hlt : ¬i < n + 1 := by omega
        simp [hpos, hlt]

theorem chosen_eq {arrivals as : List Arrival}
    (h : ∀ i < as.length, latest? i arrivals = as[i]?) : chosen as.length arrivals = as := by
  have hget : ∀ {i : Nat} (hi : i < as.length), latest? i arrivals = some as[i] := fun hi => by
    rw [h _ hi, List.getElem?_eq_getElem hi]
  obtain ⟨hlength, hchosen⟩ := chosen_spec fun i hi => ⟨as[i], hget hi⟩
  refine List.ext_getElem hlength fun i _ hi => ?_
  exact (List.getElem_eq_iff _).2 (hchosen.2 ⟨hi, hget hi⟩)

end Arrival

open Arrival (latest?)

namespace Partial

/-- The partial that `first` opened, after these arrived for it. -/
def collecting (opened : Nat) (first : Arrival) (arrivals : List Arrival) : Partial where
  sender := first.message.sender
  identifier := first.part.identifier
  lead := first.part.lead
  version := first.part.version
  slots := (List.range first.part.count.toNat).map fun i =>
    (latest? i arrivals).map (·.part.chunk)
  timestamp := ((latest? 0 arrivals).map (·.message.timestamp)).getD first.message.timestamp
  opened

variable {opened : Nat} {first : Arrival} {arrivals : List Arrival}

theorem openFor_eq (a : Arrival) (now : Nat) :
    openFor a.message a.part now = collecting now a [] := by
  simp [openFor, collecting, List.map_const']

@[simp]
theorem length_slots_collecting :
    (collecting opened first arrivals).slots.length = first.part.count.toNat := by
  simp [collecting]

theorem accepts_collecting {p : Part} :
    (collecting opened first arrivals).accepts p = true ↔
      first.part.count.toNat = p.count.toNat ∧ first.part.lead = p.lead ∧
        first.part.version = p.version := by
  rw [accepts, length_slots_collecting]
  simp [collecting, and_assoc]

theorem getElem?_slots_collecting (i : Nat) :
    (collecting opened first arrivals).slots[i]? =
      if i < first.part.count.toNat then some ((latest? i arrivals).map (·.part.chunk)) else none := by
  by_cases h : i < first.part.count.toNat <;> simp [collecting, h]

/-- Filling a slot adds an arrival. -/
theorem fill_collecting (a : Arrival) :
    (collecting opened first arrivals).fill a.message a.part =
      collecting opened first (arrivals ++ [a]) := by
  have hslots : (collecting opened first arrivals).slots.set a.part.index.toNat
      (some a.part.chunk) = (collecting opened first (arrivals ++ [a])).slots := by
    refine List.ext_getElem? fun i => ?_
    rw [List.getElem?_set, getElem?_slots_collecting, getElem?_slots_collecting,
      length_slots_collecting, Arrival.latest?_concat]
    by_cases hi : a.part.index.toNat = i
    · rw [if_pos hi, if_pos hi, hi, Option.map_some]
    · rw [if_neg hi, if_neg hi]
  have htimestamp : (if a.part.index = 0 then a.message.timestamp
      else (collecting opened first arrivals).timestamp) =
        (collecting opened first (arrivals ++ [a])).timestamp := by
    simp only [collecting, Arrival.latest?_concat, ← UInt8.toNat_inj, UInt8.toNat_zero]
    by_cases hi : a.part.index.toNat = 0
    · rw [if_pos hi, if_pos hi, Option.map_some, Option.getD_some]
    · rw [if_neg hi, if_neg hi]
  rw [fill, hslots, htimestamp]
  rfl

/-- The part that a partial is opened for is the first that it collects. -/
theorem fill_openFor (m : Message) (p : Part) (now : Nat) :
    (openFor m p now).fill m p = collecting now ⟨m, p⟩ [⟨m, p⟩] := by
  rw [openFor_eq ⟨m, p⟩, fill_collecting ⟨m, p⟩, List.nil_append]

theorem isComplete_collecting :
    (collecting opened first arrivals).isComplete = true ↔
      ∀ i < first.part.count.toNat, ∃ a, latest? i arrivals = some a := by
  simp [isComplete, collecting, Option.isSome_iff_exists]

/-- A partial counts the indices that arrived. -/
theorem received_collecting (hlt : ∀ a ∈ arrivals, a.part.index.toNat < first.part.count.toNat) :
    (collecting opened first arrivals).received =
      (arrivals.map (·.part.index.toNat)).dedup.length := by
  -- The slots that are filled are those that an arrival points to.
  have hfilled : ((List.range first.part.count.toNat).filter
      fun i => (latest? i arrivals).isSome).Perm (arrivals.map (·.part.index.toNat)).dedup := by
    refine (List.perm_ext_iff_of_nodup (List.nodup_range.filter _) (List.nodup_dedup _)).2
      fun i => ?_
    rw [List.mem_filter, List.mem_range, List.mem_dedup, List.mem_map, Arrival.isSome_latest?]
    constructor
    · rintro ⟨-, h⟩
      exact h
    · rintro ⟨a, ha, rfl⟩
      exact ⟨hlt a ha, a, ha, rfl⟩
  calc (collecting opened first arrivals).received
      = ((List.range first.part.count.toNat).filter
          fun i => (latest? i arrivals).isSome).length := by
        rw [received, collecting, List.countP_map, List.countP_eq_length_filter]
        simp [Function.comp_def]
    _ = (arrivals.map (·.part.index.toNat)).dedup.length := hfilled.length_eq

/-- The payload is made of the chunks of the latest arrivals. -/
theorem payload_collecting :
    (collecting opened first arrivals).payload =
      first.part.version ::
        (Arrival.chosen first.part.count.toNat arrivals).flatMap (·.part.chunk) := by
  rw [payload, collecting, Arrival.chosen, List.filterMap_map, List.flatMap_def,
    List.map_filterMap]
  rfl

/-- The message that a partial leaves as: of the latest arrivals, the first gives
    the timestamp and all of them the payload. -/
theorem toMessage_collecting {a : Arrival} {as : List Arrival}
    (hlength : as.length = first.part.count.toNat)
    (hlatest : ∀ i < as.length, latest? i arrivals = as[i]?) (hhead : as[0]? = some a) :
    (collecting opened first arrivals).toMessage =
      Message.plain first.message.sender
        (Wire.encodeBody (Wire.kindOfLead first.part.lead)
          (first.part.version :: as.flatMap (·.part.chunk)))
        a.message.timestamp := by
  have htimestamp : (collecting opened first arrivals).timestamp = a.message.timestamp := by
    rw [collecting, hlatest 0 (List.getElem?_eq_some_iff.1 hhead).1, hhead]
    rfl
  rw [toMessage, payload_collecting, ← hlength, Arrival.chosen_eq hlatest, htimestamp]
  rfl

/-- One arrival fills no partial that waits for several. -/
theorem isComplete_collecting_single {a : Arrival} (hcount : 1 < first.part.count.toNat) :
    (collecting opened first [a]).isComplete = false := by
  refine Bool.eq_false_iff.2 fun h => ?_
  obtain ⟨b, hb⟩ := isComplete_collecting.1 h 0 (by omega)
  obtain ⟨b', hb'⟩ := isComplete_collecting.1 h 1 hcount
  have hindex := Arrival.index_of_latest? hb
  have hindex' := Arrival.index_of_latest? hb'
  rw [List.mem_singleton.1 (Arrival.mem_of_latest? hb)] at hindex
  rw [List.mem_singleton.1 (Arrival.mem_of_latest? hb')] at hindex'
  omega

end Partial

end SecureInbox
