import SecureInbox.Part.Basic
import SecureInbox.Proofs.Wire

/-!
# Parts on the wire

A part is read back as it was written if its lead is one of the table and its
numbers fit in half a byte each (`Part.parse_encode`); nothing else is ever read
(`Part.isWellFormed_of_parse`).

Splitting a body numbers the parts in order and hands out the data without a gap
(`Part.IsSplit`), so the chunks of the parts, joined in order, are the data
again.
-/

namespace SecureInbox.Part

/-! ## Reading and writing -/

/-- The part can be written down: it has a lead, and its index is below the
    number of parts, which fits in half a byte. -/
structure IsWellFormed (p : Part) : Prop where
  lead : ∃ kind, (kind, p.lead) ∈ Wire.leads
  index_lt : p.index < p.count
  count_le : p.count.toNat ≤ maxParts

theorem IsWellFormed.count_ne_zero {p : Part} (h : p.IsWellFormed) : p.count ≠ 0 := by
  intro hcount
  have hlt := UInt8.lt_iff_toNat_lt.1 h.index_lt
  rw [hcount] at hlt
  exact Nat.not_lt_zero _ hlt

/-- The halves of the header byte are the index and the number of parts. -/
theorem IsWellFormed.header_halves {p : Part} (h : p.IsWellFormed) :
    (p.index * 16 + p.count % 16) / 16 = p.index ∧
      (p.index * 16 + p.count % 16) % 16 = p.count := by
  have hlt := UInt8.lt_iff_toNat_lt.1 h.index_lt
  have hle : p.count.toNat ≤ 15 := h.count_le
  simp only [← UInt8.toNat_inj, UInt8.toNat_div, UInt8.toNat_mod, UInt8.toNat_add, UInt8.toNat_mul,
    UInt8.reduceToNat]
  omega

theorem ofEnvelope_envelope {p : Part} (h : p.IsWellFormed) :
    ofEnvelope p.lead p.envelope = .ok p := by
  obtain ⟨hindex, hcount⟩ := h.header_halves
  rw [envelope, ofEnvelope, hindex, hcount, if_neg]
  rintro (hzero | hle)
  · exact h.count_ne_zero hzero
  · exact absurd h.index_lt (UInt8.not_lt.2 hle)

/-- A part is read back as it was written. -/
theorem parse_encode {p : Part} (h : p.IsWellFormed) : parse p.encode = .ok p := by
  obtain ⟨kind, hlead⟩ := h.lead
  rw [parse, encode, Wire.kindOfLead_eq hlead, Wire.splitPart?_encodePart hlead]
  simp only [Wire.decodePart_encode, ofEnvelope_envelope h]

theorem isSpecial_encode {p : Part} (h : p.IsWellFormed) : Wire.isSpecial p.encode = true := by
  obtain ⟨kind, hlead⟩ := h.lead
  rw [encode, Wire.kindOfLead_eq hlead]
  exact Wire.isSpecial_of_matchLead? (Wire.matchLead?_encodePart hlead p.envelope)

/-- A whole message is not read as a part. -/
theorem parse_encodeBody (kind : Kind) (payload : Bytes) :
    parse (Wire.encodeBody kind payload) = .error .notAPart := by
  rw [parse, Wire.splitPart?_encodeBody]

theorem isWellFormed_of_ofEnvelope {lead : String} {envelope : Bytes} {p : Part}
    (hlead : ∃ kind, (kind, lead) ∈ Wire.leads) (h : ofEnvelope lead envelope = .ok p) :
    p.IsWellFormed := by
  unfold ofEnvelope at h
  split at h
  · rename_i header _ _
    dsimp only at h
    split at h
    · exact nomatch h
    · rename_i hfits
      cases h
      refine ⟨hlead, UInt8.not_le.1 fun hle => hfits (.inr hle), ?_⟩
      have hmod : (header % 16).toNat = header.toNat % 16 := UInt8.toNat_mod header 16
      have hlt := Nat.mod_lt header.toNat (show 0 < 16 by decide)
      simp only [maxParts]
      omega
  · exact nomatch h

/-- Whatever is read as a part can be written down. -/
theorem isWellFormed_of_parse {body : String} {p : Part} (h : parse body = .ok p) :
    p.IsWellFormed := by
  unfold parse at h
  split at h
  · exact nomatch h
  · rename_i kind lead text hsplit
    split at h
    · exact nomatch h
    · exact isWellFormed_of_ofEnvelope ⟨kind, Wire.mem_leads_of_splitPart? hsplit⟩ h

/-! ## Splitting -/

/-- The parts are those of one message: they agree on all but index and chunk,
    are numbered in order, and their chunks make up the data. -/
structure IsSplit (parts : List Part) (lead : String) (version identifier : UInt8)
    (data : Bytes) : Prop where
  length_pos : 0 < parts.length
  length_le : parts.length ≤ maxParts
  lead_eq : ∀ p ∈ parts, p.lead = lead
  version_eq : ∀ p ∈ parts, p.version = version
  identifier_eq : ∀ p ∈ parts, p.identifier = identifier
  count_eq : ∀ p ∈ parts, p.count.toNat = parts.length
  index_eq : ∀ {i : Nat} {p : Part}, parts[i]? = some p → p.index.toNat = i
  data_eq : parts.flatMap (·.chunk) = data

theorem IsSplit.isWellFormed {parts : List Part} {lead : String} {version identifier : UInt8}
    {data : Bytes} (h : IsSplit parts lead version identifier data)
    (hlead : ∃ kind, (kind, lead) ∈ Wire.leads) {p : Part} (hp : p ∈ parts) : p.IsWellFormed where
  lead := h.lead_eq p hp ▸ hlead
  index_lt := by
    obtain ⟨i, hi⟩ := List.mem_iff_getElem?.1 hp
    obtain ⟨hlt, -⟩ := List.getElem?_eq_some_iff.1 hi
    rwa [UInt8.lt_iff_toNat_lt, h.index_eq hi, h.count_eq p hp]
  count_le := h.count_eq p hp ▸ h.length_le

/-- The indices count the parts. -/
theorem IsSplit.map_index {parts : List Part} {lead : String} {version identifier : UInt8}
    {data : Bytes} (h : IsSplit parts lead version identifier data) :
    parts.map (·.index.toNat) = List.range parts.length := by
  refine List.ext_getElem (by simp) fun i hi _ => ?_
  rw [List.length_map] at hi
  simpa using h.index_eq (List.getElem?_eq_getElem hi)

/-- The first `n` chunks are the start of the data. -/
theorem flatMap_chunks (size : Nat) (data : Bytes) (n : Nat) :
    (List.range n).flatMap (fun i => (data.drop (i * size)).take size) = data.take (n * size) := by
  induction n with
  | zero => simp
  | succ n ih =>
    rw [List.range_succ, List.flatMap_append, ih, List.flatMap_singleton, Nat.add_one_mul,
      List.take_add]

/-- The chunks reach to the end of the data. -/
theorem le_chunkCount_mul {size : Nat} (hsize : size ≠ 0) (length : Nat) :
    length ≤ chunkCount size length * size := by
  have hcover : length ≤ (length + size - 1) / size * size := by
    have hdiv := Nat.div_add_mod (length + size - 1) size
    have hmod := Nat.mod_lt (length + size - 1) (Nat.pos_of_ne_zero hsize)
    rw [Nat.mul_comm] at hdiv
    omega
  exact Nat.le_trans hcover (Nat.mul_le_mul_right size (Nat.le_max_right _ _))

theorem isSplit_ofData {lead : String} {version identifier : UInt8} {size : Nat} {data : Bytes}
    (hsize : size ≠ 0) (hcount : chunkCount size data.length ≤ maxParts) :
    IsSplit (ofData lead version identifier size data) lead version identifier data := by
  have hlength : (ofData lead version identifier size data).length =
      chunkCount size data.length := by
    simp [ofData]
  have hfits : ∀ {i : Nat}, i ≤ chunkCount size data.length → (UInt8.ofNat i).toNat = i := by
    intro i hi
    have hlt : i < 256 := Nat.lt_of_le_of_lt (Nat.le_trans hi hcount) (by decide)
    rw [UInt8.toNat_ofNat', Nat.mod_eq_of_lt hlt]
  refine
    { length_pos := hlength ▸ Nat.le_max_left _ _
      length_le := hlength ▸ hcount
      lead_eq := by simp [ofData]
      version_eq := by simp [ofData]
      identifier_eq := by simp [ofData]
      count_eq := ?_
      index_eq := ?_
      data_eq := ?_ }
  · intro p hp
    obtain ⟨i, -, rfl⟩ := List.mem_map.1 hp
    rw [hlength]
    exact hfits (Nat.le_refl _)
  · intro i p hi
    have hlt := hlength ▸ (List.getElem?_eq_some_iff.1 hi).1
    rw [ofData, List.getElem?_map, List.getElem?_range hlt] at hi
    cases hi
    exact hfits (Nat.le_of_lt hlt)
  · rw [ofData, List.flatMap_map, flatMap_chunks,
      List.take_of_length_le (le_chunkCount_mul hsize data.length)]

/-- What a body is split into. -/
theorem splitBody_eq_ok {body : String} {identifier : UInt8} {size : Nat} {texts : List String}
    (h : splitBody body identifier size = .ok texts) :
    ∃ kind lead version data parts, Wire.matchLead? body = some (kind, lead) ∧
      Wire.decodePayload body = .ok (version :: data) ∧
        IsSplit parts lead version identifier data ∧ texts = parts.map encode := by
  unfold splitBody at h
  split at h
  · exact nomatch h
  · rename_i hsize
    split at h
    · exact nomatch h
    · rename_i kind lead hlead
      split at h
      · exact nomatch h
      · exact nomatch h
      · rename_i version data hpayload
        split at h
        · exact nomatch h
        · rename_i hcount
          cases h
          exact ⟨kind, lead, version, data, _, hlead, hpayload,
            isSplit_ofData hsize (Nat.not_lt.1 hcount), rfl⟩

/-- A whole message can be split if its data fit into fifteen parts. -/
theorem splitBody_encodeBody {kind : Kind} {lead : String} (hlead : (kind, lead) ∈ Wire.leads)
    (version identifier : UInt8) {size : Nat} {data : Bytes} (hsize : size ≠ 0)
    (hcount : chunkCount size data.length ≤ maxParts) :
    splitBody (Wire.encodeBody kind (version :: data)) identifier size =
      .ok ((ofData lead version identifier size data).map encode) := by
  simp only [splitBody, if_neg hsize, Wire.matchLead?_encodeBody hlead,
    Wire.decodePayload_encodeBody, if_neg (Nat.not_lt.2 hcount)]

/-! ## A message in two halves -/

/-- One half of a ciphertext of two bytes. -/
def half (index b : UInt8) : Part :=
  { lead := Wire.cipherLead, version := 2, index, count := 2, identifier := 7, chunk := [b] }

theorem isWellFormed_half {index : UInt8} (h : index < 2) (b : UInt8) :
    (half index b).IsWellFormed where
  lead := ⟨.secureCiphertext, by simp [half, Wire.leads]⟩
  index_lt := h
  count_le := by simp [half, maxParts]

theorem splitBody_halves (a b : UInt8) :
    splitBody (Wire.encodeBody .secureCiphertext [2, a, b]) 7 1 =
      .ok [(half 0 a).encode, (half 1 b).encode] := by
  have hlead : (.secureCiphertext, Wire.cipherLead) ∈ Wire.leads := by simp [Wire.leads]
  have hcount : chunkCount 1 [a, b].length ≤ maxParts := show chunkCount 1 2 ≤ maxParts by decide
  have hparts : ofData Wire.cipherLead 2 7 1 [a, b] = [half 0 a, half 1 b] := by
    simp [ofData, chunkCount, List.range_succ, half]
  rw [splitBody_encodeBody hlead 2 7 Nat.one_ne_zero hcount, hparts]
  rfl

end SecureInbox.Part
