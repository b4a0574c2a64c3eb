import SecureInbox.Proofs.Part.Envelope
import Mathlib.Algebra.Order.Floor.Div

/-!
# Which bodies can be split

A special body is cut into as many parts as its data need, and into one if there are no
data (`Part.chunkCount_eq`). Every part but the last carries as much of the data as it
may. More than fifteen parts cannot be numbered, so such a body is refused, as are those
without a payload, for the first of the faults that applies (`Part.Splits`).

* `Part.isPartition_ofData`: what the parts are read as;
* `Part.splitBody_eq_iff`: what every body is split into;
* `Part.isBoundedPartition`: both, and each fault with the bodies that have it.
-/

namespace SecureInbox.Part

variable {body lead : String} {version identifier : UInt8} {size : Nat} {data : Bytes}

/-! ## The parts of the data -/

/-- The number of chunks is the length over the size, rounded up, and one at least. -/
theorem chunkCount_eq (size length : Nat) : chunkCount size length = max 1 (length ⌈/⌉ size) := by
  rw [chunkCount, Nat.ceilDiv_eq_add_pred_div]

/-- All chunks but the last end within the data. -/
theorem mul_le_length {length i : Nat} (hsize : size ≠ 0) (h : i + 1 < chunkCount size length) :
    (i + 1) * size ≤ length := by
  have hceil : i + 1 < length ⌈/⌉ size := by
    rw [chunkCount_eq] at h
    omega
  refine Nat.le_of_lt (Nat.not_le.1 fun hle => Nat.not_le.2 hceil ?_)
  rwa [ceilDiv_le_iff_le_mul (Nat.pos_of_ne_zero hsize), Nat.mul_comm]

/-- The texts are read as parts in order, as many as there are chunks of the data. All
    carry chunks of the same size but the last, which may carry less. -/
structure IsPartition (texts : List String) (lead : String) (version identifier : UInt8)
    (size : Nat) (data : Bytes) (parts : List Part) : Prop where
  map_parse : texts.map parse = parts.map .ok
  length_eq : parts.length = max 1 (data.length ⌈/⌉ size)
  header_eq : ∀ {i : Nat} {p : Part}, parts[i]? = some p → p.lead = lead ∧ p.version = version ∧
    p.index.toNat = i ∧ p.count.toNat = parts.length ∧ p.identifier = identifier
  chunk_le : ∀ {i : Nat} {p : Part}, parts[i]? = some p → p.chunk.length ≤ size
  chunk_eq : ∀ {i : Nat} {p : Part}, parts[i]? = some p → i + 1 < parts.length →
    p.chunk.length = size
  data_eq : parts.flatMap (·.chunk) = data

@[simp] theorem length_ofData (lead : String) (version identifier : UInt8) (size : Nat)
    (data : Bytes) :
    (ofData lead version identifier size data).length = chunkCount size data.length := by
  simp [ofData]

theorem length_chunk_of_ofData {i : Nat} {p : Part}
    (hp : (ofData lead version identifier size data)[i]? = some p) :
    p.chunk.length = min size (data.length - i * size) := by
  obtain ⟨hlt, -⟩ := List.getElem?_eq_some_iff.1 hp
  rw [length_ofData] at hlt
  rw [ofData, List.getElem?_map, List.getElem?_range hlt] at hp
  cases hp
  rw [List.length_take, List.length_drop]

/-- The parts of the data are read back from the bodies they are sent as. -/
theorem isPartition_ofData (hlead : ∃ kind, (kind, lead) ∈ Wire.leads) (hsize : size ≠ 0)
    (hcount : chunkCount size data.length ≤ maxParts) :
    IsPartition ((ofData lead version identifier size data).map encode) lead version identifier
      size data (ofData lead version identifier size data) := by
  have hsplit : IsSplit (ofData lead version identifier size data) lead version identifier data :=
    isSplit_ofData hsize hcount
  refine
    { map_parse := ?_
      length_eq := by rw [length_ofData, chunkCount_eq]
      header_eq := fun {i p} hi => ?_
      chunk_le := fun {i p} hi => ?_
      chunk_eq := fun {i p} hi hlt => ?_
      data_eq := hsplit.data_eq }
  · rw [List.map_map]
    refine List.map_congr_left fun p hp => ?_
    rw [Function.comp_apply, parse_encode (hsplit.isWellFormed hlead hp)]
  · have hp := List.mem_of_getElem? hi
    exact ⟨hsplit.lead_eq p hp, hsplit.version_eq p hp, hsplit.index_eq hi, hsplit.count_eq p hp,
      hsplit.identifier_eq p hp⟩
  · rw [length_chunk_of_ofData hi]
    exact Nat.min_le_left _ _
  · rw [length_ofData] at hlt
    have hle := mul_le_length hsize hlt
    rw [Nat.add_one_mul] at hle
    rw [length_chunk_of_ofData hi]
    omega

/-! ## Splitting -/

/-- What a body is split into: bodies of parts, or else the first thing that is wrong. -/
inductive Splits (body : String) (identifier : UInt8) (size : Nat) :
    Except PartError (List String) → Prop
  | zeroChunk : size = 0 → Splits body identifier size (.error .zeroChunk)
  | notSpecial : size ≠ 0 → Wire.matchLead? body = none →
      Splits body identifier size (.error .notSpecial)
  | undecodable {lead : Kind × String} {cause : Base64.Error} : size ≠ 0 →
      Wire.matchLead? body = some lead → Wire.decodePayload body = .error cause →
      Splits body identifier size (.error (.undecodable cause))
  | truncated {lead : Kind × String} : size ≠ 0 → Wire.matchLead? body = some lead →
      Wire.decodePayload body = .ok [] → Splits body identifier size (.error (.truncated 0))
  | tooManyParts {lead : Kind × String} {version : UInt8} {data : Bytes} : size ≠ 0 →
      Wire.matchLead? body = some lead → Wire.decodePayload body = .ok (version :: data) →
      maxParts < chunkCount size data.length →
      Splits body identifier size (.error (.tooManyParts (chunkCount size data.length)))
  | parts {kind : Kind} {lead : String} {version : UInt8} {data : Bytes} : size ≠ 0 →
      Wire.matchLead? body = some (kind, lead) → Wire.decodePayload body = .ok (version :: data) →
      chunkCount size data.length ≤ maxParts →
      Splits body identifier size (.ok ((ofData lead version identifier size data).map encode))

theorem splits_splitBody (body : String) (identifier : UInt8) (size : Nat) :
    Splits body identifier size (splitBody body identifier size) := by
  rw [splitBody]
  split
  · exact .zeroChunk ‹_›
  · rename_i hsize
    split
    · exact .notSpecial hsize ‹_›
    · rename_i hlead
      split
      · exact .undecodable hsize hlead ‹_›
      · exact .truncated hsize hlead ‹_›
      · rename_i hpayload
        split
        · exact .tooManyParts hsize hlead hpayload ‹_›
        · exact .parts hsize hlead hpayload (Nat.not_lt.1 ‹_›)

/-- Every body is split in one way. -/
theorem Splits.eq_splitBody {result : Except PartError (List String)}
    (h : Splits body identifier size result) : splitBody body identifier size = result := by
  cases h with
  | zeroChunk hsize => rw [splitBody, if_pos hsize]
  | notSpecial hsize hlead => rw [splitBody, if_neg hsize, hlead]
  | undecodable hsize hlead hpayload => simp only [splitBody, if_neg hsize, hlead, hpayload]
  | truncated hsize hlead hpayload => simp only [splitBody, if_neg hsize, hlead, hpayload]
  | tooManyParts hsize hlead hpayload hcount =>
    simp only [splitBody, if_neg hsize, hlead, hpayload, if_pos hcount]
  | parts hsize hlead hpayload hcount =>
    simp only [splitBody, if_neg hsize, hlead, hpayload, if_neg (Nat.not_lt.2 hcount)]

theorem splitBody_eq_iff {result : Except PartError (List String)} :
    splitBody body identifier size = result ↔ Splits body identifier size result :=
  ⟨fun h => h ▸ splits_splitBody body identifier size, Splits.eq_splitBody⟩

/-- A body is split if it is special and its data fit into fifteen parts, which are then
    those of its data. Any other body is refused for its first fault. -/
structure IsBoundedPartition : Prop where
  succeeds_iff : ∀ body identifier size,
    (∃ texts, splitBody body identifier size = .ok texts) ↔
      size ≠ 0 ∧ ∃ lead version data, Wire.matchLead? body = some lead ∧
        Wire.decodePayload body = .ok (version :: data) ∧ max 1 (data.length ⌈/⌉ size) ≤ 15
  /-- What a body is split into is told by its lead and its payload. -/
  partition : ∀ body identifier size texts, splitBody body identifier size = .ok texts →
    ∃ kind lead version data parts, Wire.matchLead? body = some (kind, lead) ∧
      Wire.decodePayload body = .ok (version :: data) ∧
        IsPartition texts lead version identifier size data parts
  zeroChunk_iff : ∀ body identifier size,
    splitBody body identifier size = .error .zeroChunk ↔ size = 0
  notSpecial_iff : ∀ body identifier size,
    splitBody body identifier size = .error .notSpecial ↔
      size ≠ 0 ∧ Wire.matchLead? body = none
  undecodable_iff : ∀ body identifier size cause,
    splitBody body identifier size = .error (.undecodable cause) ↔
      size ≠ 0 ∧ (∃ lead, Wire.matchLead? body = some lead) ∧
        Wire.decodePayload body = .error cause
  truncated_iff : ∀ body identifier size n,
    splitBody body identifier size = .error (.truncated n) ↔
      size ≠ 0 ∧ (∃ lead, Wire.matchLead? body = some lead) ∧
        Wire.decodePayload body = .ok [] ∧ n = 0
  tooManyParts_iff : ∀ body identifier size n,
    splitBody body identifier size = .error (.tooManyParts n) ↔
      size ≠ 0 ∧ (∃ lead, Wire.matchLead? body = some lead) ∧
        ∃ version data, Wire.decodePayload body = .ok (version :: data) ∧
          n = max 1 (data.length ⌈/⌉ size) ∧ 15 < n
  /-- There are no other faults. -/
  faults : ∀ body identifier size error, splitBody body identifier size = .error error →
    error = .zeroChunk ∨ error = .notSpecial ∨ (∃ cause, error = .undecodable cause) ∨
      error = .truncated 0 ∨ ∃ n, error = .tooManyParts n

/-- Splitting is a bounded partition of the data. -/
theorem isBoundedPartition : IsBoundedPartition where
  succeeds_iff := by
    intro body identifier size
    simp only [splitBody_eq_iff, ← chunkCount_eq]
    constructor
    · rintro ⟨_, _ | _ | _ | _ | _ | ⟨hsize, hlead, hpayload, hcount⟩⟩
      exact ⟨hsize, _, _, _, hlead, hpayload, hcount⟩
    · rintro ⟨hsize, ⟨kind, lead⟩, version, data, hlead, hpayload, hcount⟩
      exact ⟨_, .parts hsize hlead hpayload hcount⟩
  partition := by
    intro body identifier size texts h
    rw [splitBody_eq_iff] at h
    obtain _ | _ | _ | _ | _ | ⟨hsize, hlead, hpayload, hcount⟩ := h
    exact ⟨_, _, _, _, _, hlead, hpayload,
      isPartition_ofData ⟨_, Wire.mem_leads_of_matchLead? hlead⟩ hsize hcount⟩
  zeroChunk_iff := by
    intro body identifier size
    rw [splitBody_eq_iff]
    exact ⟨fun | .zeroChunk hsize => hsize, .zeroChunk⟩
  notSpecial_iff := by
    intro body identifier size
    rw [splitBody_eq_iff]
    exact ⟨fun | .notSpecial hsize hlead => ⟨hsize, hlead⟩,
      fun ⟨hsize, hlead⟩ => .notSpecial hsize hlead⟩
  undecodable_iff := by
    intro body identifier size cause
    rw [splitBody_eq_iff]
    exact ⟨fun | .undecodable hsize hlead hpayload => ⟨hsize, ⟨_, hlead⟩, hpayload⟩,
      fun ⟨hsize, ⟨_, hlead⟩, hpayload⟩ => .undecodable hsize hlead hpayload⟩
  truncated_iff := by
    intro body identifier size n
    rw [splitBody_eq_iff]
    constructor
    · rintro (_ | _ | _ | ⟨hsize, hlead, hpayload⟩)
      exact ⟨hsize, ⟨_, hlead⟩, hpayload, rfl⟩
    · rintro ⟨hsize, ⟨lead, hlead⟩, hpayload, rfl⟩
      exact .truncated hsize hlead hpayload
  tooManyParts_iff := by
    intro body identifier size n
    simp only [splitBody_eq_iff, ← chunkCount_eq]
    constructor
    · rintro (_ | _ | _ | _ | ⟨hsize, hlead, hpayload, hcount⟩)
      exact ⟨hsize, ⟨_, hlead⟩, _, _, hpayload, rfl, hcount⟩
    · rintro ⟨hsize, ⟨lead, hlead⟩, version, data, hpayload, rfl, hcount⟩
      exact .tooManyParts hsize hlead hpayload hcount
  faults := by
    intro body identifier size error h
    rw [splitBody_eq_iff] at h
    cases h with
    | zeroChunk => exact .inl rfl
    | notSpecial => exact .inr (.inl rfl)
    | undecodable => exact .inr (.inr (.inl ⟨_, rfl⟩))
    | truncated => exact .inr (.inr (.inr (.inl rfl)))
    | tooManyParts => exact .inr (.inr (.inr (.inr ⟨_, rfl⟩)))

end SecureInbox.Part
