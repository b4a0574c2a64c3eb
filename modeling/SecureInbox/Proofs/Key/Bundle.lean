import SecureInbox.Proofs.Key.Format

/-!
# Prekey bundles, read and written

A text is read as a bundle exactly when its payload has at least 76 bytes, a version
that is understood and two valid keys. What is read is what stands in the fields,
and everything after them is the ciphertext inside. Any other text is refused for
the first of its faults, in the same order as a key exchange, though with other
words for a payload that is missing or too short.

A bundle is read back as it was written under the same conditions as a key exchange,
if there is something inside.

The message inside becomes a body of its own (`PreKeyBundle.innerBody`). That one is
told apart as ciphertext, is no part, and has all the bytes that were inside.

* `PreKeyBundle.decode_eq_ok_iff`, `PreKeyBundle.decode_encode_iff`: which texts are
  read, and which bundles are read back;
* `PreKeyBundle.isDecodedRightly`: both, and the faults of all other texts;
* `PreKeyBundle.opensAs_innerBody`: what the body of the message inside is.
-/

namespace SecureInbox.PreKeyBundle

variable {body : String} {payload : Bytes} {x : PreKeyBundle}

/-- The payload is that of a bundle. -/
structure IsWellFormed (payload : Bytes) : Prop where
  length : 76 ≤ payload.length
  supported : ∃ version, Wire.HasVersion payload version ∧ (version = 1 ∨ version = 2)
  baseKey : PublicKey.IsWritten (payload.field 9 33)
  identityKey : PublicKey.IsWritten (payload.field 42 33)

/-- The bundle is what stands in the fields of a payload and after them. -/
structure IsIn (x : PreKeyBundle) (payload : Bytes) : Prop where
  version : Wire.HasVersion payload x.version
  sequence : x.sequence.toNat = Bytes.number (payload.field 1 4)
  prekey : x.prekey.toNat = Bytes.number (payload.field 5 4)
  baseKey : x.baseKey.bytes = payload.field 9 33
  identityKey : x.identityKey.key.bytes = payload.field 42 33
  inner : x.inner = payload.drop 75

/-! ## What is read -/

/-- The version is looked at first, whatever the length. -/
theorem ofPayload_of_unsupported {version : UInt8} (hversion : Wire.HasVersion payload version)
    (h : ¬(version = 1 ∨ version = 2)) : ofPayload payload = .error (.invalidVersion version) := by
  obtain ⟨head, rest, rfl, rfl⟩ := hversion.exists_eq_cons
  rw [← Wire.isSupported_iff, Bool.not_eq_true] at h
  simp [ofPayload, h]

/-- The length is looked at next. Fields alone, without ciphertext, are too
    short. -/
theorem ofPayload_of_short {version : UInt8} (hversion : Wire.HasVersion payload version)
    (h : version = 1 ∨ version = 2) (hlength : payload.length < 76) :
    ∃ reason, ofPayload payload = .error (.malformedBundle reason) := by
  obtain ⟨head, rest, rfl, rfl⟩ := hversion.exists_eq_cons
  rw [← Wire.isSupported_iff] at h
  rw [List.length_cons] at hlength
  simp only [ofPayload, h, Bool.not_true, Bool.false_eq_true, if_false]
  exact ⟨_, if_pos (Nat.le_of_lt_succ hlength)⟩

/-- In a payload that is long enough the keys are read from their fields. -/
theorem ofPayload_of_le_length {version : UInt8} (hversion : Wire.HasVersion payload version)
    (h : version = 1 ∨ version = 2) (hlength : 76 ≤ payload.length) :
    ofPayload payload = do
      let baseKey ← PublicKey.ofBytes (payload.field 9 33)
      let identityKey ← PublicKey.ofBytes (payload.field 42 33)
      return ⟨version, Bytes.firstWord (payload.drop 1), Bytes.firstWord (payload.drop 5), baseKey,
        ⟨identityKey⟩, payload.drop 75⟩ := by
  obtain ⟨head, rest, rfl, rfl⟩ := hversion.exists_eq_cons
  rw [← Wire.isSupported_iff] at h
  rw [List.length_cons] at hlength
  simp only [ofPayload, h, Bool.not_true, Bool.false_eq_true, if_false]
  exact if_neg (Nat.not_le_of_lt hlength)

theorem ofPayload_eq_ok_iff :
    ofPayload payload = .ok x ↔ IsWellFormed payload ∧ x.IsIn payload := by
  constructor
  · intro h
    have hlength : 76 ≤ payload.length := length_of_ofPayload h
    obtain ⟨version, hversion⟩ := Wire.exists_hasVersion
      (List.ne_nil_of_length_pos (Nat.zero_lt_of_lt hlength))
    have hsupported : version = 1 ∨ version = 2 := Decidable.byContradiction fun hunsupported =>
      nomatch h.symm.trans (ofPayload_of_unsupported hversion hunsupported)
    rw [ofPayload_of_le_length hversion hsupported hlength, PublicKey.ofBytes_bind_eq_ok_iff] at h
    obtain ⟨⟨hbase, hidentity⟩, baseKey, identityKey, hkey, hkey', rfl⟩ := h
    exact ⟨⟨hlength, ⟨version, hversion, hsupported⟩, hbase, hidentity⟩,
      ⟨hversion, Bytes.toNat_firstWord_drop (by omega), Bytes.toNat_firstWord_drop (by omega),
        hkey, hkey', rfl⟩⟩
  · rintro ⟨⟨hlength, ⟨version, hversion, hsupported⟩, hbase, hidentity⟩, hin⟩
    obtain rfl := hversion.unique hin.version
    rw [ofPayload_of_le_length hversion hsupported hlength, PublicKey.ofBytes_bind_eq_ok_iff]
    refine ⟨⟨hbase, hidentity⟩, x.baseKey, x.identityKey.key, hin.baseKey, hin.identityKey, ?_⟩
    have hsequence : x.sequence = Bytes.firstWord (payload.drop 1) :=
      UInt32.toNat_inj.1 (hin.sequence.trans (Bytes.toNat_firstWord_drop (by omega)).symm)
    have hprekey : x.prekey = Bytes.firstWord (payload.drop 5) :=
      UInt32.toNat_inj.1 (hin.prekey.trans (Bytes.toNat_firstWord_drop (by omega)).symm)
    rw [← hsequence, ← hprekey, ← hin.inner]

/-- What has a version that is understood and the length, but not the form, is
    refused for its keys. -/
theorem ofPayload_of_malformed {version : UInt8} (hversion : Wire.HasVersion payload version)
    (h : version = 1 ∨ version = 2) (hlength : 76 ≤ payload.length)
    (hform : ¬IsWellFormed payload) :
    ∃ reason, ofPayload payload = .error (.invalidKeyMaterial reason) := by
  rw [ofPayload_of_le_length hversion h hlength]
  exact PublicKey.ofBytes_bind_eq_error fun hkeys =>
    hform ⟨hlength, ⟨version, hversion, h⟩, hkeys.1, hkeys.2⟩

theorem IsWellFormed.exists_isIn (h : IsWellFormed payload) :
    ∃ x : PreKeyBundle, x.IsIn payload := by
  obtain ⟨hlength, ⟨version, hversion, -⟩, hbase, hidentity⟩ := h
  obtain ⟨baseKey, hbase⟩ := hbase.exists_bytes_eq
  obtain ⟨identityKey, hidentity⟩ := hidentity.exists_bytes_eq
  exact ⟨⟨version, Bytes.firstWord (payload.drop 1), Bytes.firstWord (payload.drop 5), baseKey,
    ⟨identityKey⟩, payload.drop 75⟩, hversion, Bytes.toNat_firstWord_drop (by omega),
    Bytes.toNat_firstWord_drop (by omega), hbase, hidentity, rfl⟩

/-! ## What is written -/

theorem payload_eq (x : PreKeyBundle) :
    x.payload = [Wire.versionByte x.version] ++ (Bytes.ofWord x.sequence ++
      (Bytes.ofWord x.prekey ++ (x.baseKey.bytes ++ (x.identityKey.key.bytes ++ x.inner)))) := by
  simp [payload]

theorem length_payload (x : PreKeyBundle) : x.payload.length = 75 + x.inner.length := by
  simp [payload]
  omega

theorem field_sequence (x : PreKeyBundle) : x.payload.field 1 4 = Bytes.ofWord x.sequence := by
  rw [payload_eq]
  exact Bytes.field_append rfl rfl _

theorem field_prekey (x : PreKeyBundle) : x.payload.field 5 4 = Bytes.ofWord x.prekey := by
  rw [payload_eq, ← List.append_assoc]
  exact Bytes.field_append rfl rfl _

theorem field_baseKey (x : PreKeyBundle) : x.payload.field 9 33 = x.baseKey.bytes := by
  rw [payload_eq, ← List.append_assoc, ← List.append_assoc]
  exact Bytes.field_append rfl x.baseKey.length_bytes _

theorem field_identityKey (x : PreKeyBundle) :
    x.payload.field 42 33 = x.identityKey.key.bytes := by
  rw [payload_eq, ← List.append_assoc, ← List.append_assoc, ← List.append_assoc]
  exact Bytes.field_append (by simp) x.identityKey.key.length_bytes _

theorem drop_payload (x : PreKeyBundle) : x.payload.drop 75 = x.inner := by
  rw [payload_eq]
  iterate 4 rw [← List.append_assoc]
  exact List.drop_left' (by simp)

/-- What was written stands in the payload, if its version does. -/
theorem isIn_payload (h : Wire.HasVersion x.payload x.version) : x.IsIn x.payload where
  version := h
  sequence := by rw [field_sequence, Bytes.number_ofWord]
  prekey := by rw [field_prekey, Bytes.number_ofWord]
  baseKey := x.field_baseKey.symm
  identityKey := x.field_identityKey.symm
  inner := x.drop_payload.symm

/-- The bundle can be read once it is written. -/
structure IsReadable (x : PreKeyBundle) : Prop where
  version : x.version = 1 ∨ x.version = 2
  baseKey : x.baseKey.IsNonzero
  identityKey : x.identityKey.key.IsNonzero
  inner : x.inner ≠ []

theorem IsIn.isReadable (h : x.IsIn payload) (hform : IsWellFormed payload) : x.IsReadable := by
  obtain ⟨version, hversion, hsupported⟩ := hform.supported
  obtain rfl := hversion.unique h.version
  refine ⟨hsupported, PublicKey.isWritten_bytes.1 ?_, PublicKey.isWritten_bytes.1 ?_, ?_⟩
  · rw [h.baseKey]
    exact hform.baseKey
  · rw [h.identityKey]
    exact hform.identityKey
  · rw [h.inner, Ne, List.drop_eq_nil_iff, Nat.not_le]
    exact hform.length

theorem IsReadable.ofPayload_payload (h : x.IsReadable) : ofPayload x.payload = .ok x := by
  have hversion : Wire.HasVersion x.payload x.version :=
    Wire.hasVersion_cons.2 (Wire.messageVersion_versionByte h.version).symm
  have hlength : 76 ≤ x.payload.length := by
    have := List.length_pos_iff.2 h.inner
    rw [length_payload]
    omega
  refine ofPayload_eq_ok_iff.2 ⟨⟨hlength, ⟨_, hversion, h.version⟩, ?_, ?_⟩, isIn_payload hversion⟩
  · rw [field_baseKey]
    exact PublicKey.isWritten_bytes.2 h.baseKey
  · rw [field_identityKey]
    exact PublicKey.isWritten_bytes.2 h.identityKey

/-! ## Every text -/

theorem decode_of_payload (h : Wire.decodePayload body = .ok payload) :
    decode body = ofPayload payload := by
  rw [decode, h]

theorem decode_encode (x : PreKeyBundle) : decode x.encode = ofPayload x.payload :=
  decode_of_payload (Wire.decodePayload_encodeBody ..)

theorem decode_of_no_payload (h : (∃ cause, Wire.decodePayload body = .error cause) ∨
    Wire.decodePayload body = .ok []) :
    ∃ reason, decode body = .error (.malformedBundle reason) := by
  obtain ⟨cause, h⟩ | h := h
  · exact ⟨_, by rw [decode, h]⟩
  · exact ⟨_, by rw [decode_of_payload h, ofPayload]⟩

theorem decode_eq_ok_iff : decode body = .ok x ↔
    ∃ payload, Wire.decodePayload body = .ok payload ∧ IsWellFormed payload ∧ x.IsIn payload := by
  constructor
  · intro h
    obtain ⟨payload, hpayload, h⟩ := exists_payload_of_decode h
    exact ⟨payload, hpayload, ofPayload_eq_ok_iff.1 h⟩
  · rintro ⟨payload, hpayload, h⟩
    rw [decode_of_payload hpayload]
    exact ofPayload_eq_ok_iff.2 h

theorem decode_encode_iff : decode x.encode = .ok x ↔ x.IsReadable := by
  rw [decode_encode]
  constructor
  · intro h
    obtain ⟨hform, hin⟩ := ofPayload_eq_ok_iff.1 h
    exact hin.isReadable hform
  · exact IsReadable.ofPayload_payload

theorem isReadable_of_decode (h : decode body = .ok x) : x.IsReadable := by
  obtain ⟨payload, -, hform, hin⟩ := decode_eq_ok_iff.1 h
  exact hin.isReadable hform

/-- Which texts are a bundle, and which bundle; why the others are none; and
    what is read back as it was written. -/
structure IsDecodedRightly : Prop where
  decode_eq_ok_iff : ∀ body x, decode body = .ok x ↔
    ∃ payload, Wire.decodePayload body = .ok payload ∧ IsWellFormed payload ∧ x.IsIn payload
  /-- Every payload of the right form has a bundle in it. -/
  exists_isIn : ∀ payload, IsWellFormed payload → ∃ x : PreKeyBundle, x.IsIn payload
  no_payload : ∀ body,
    ((∃ cause, Wire.decodePayload body = .error cause) ∨ Wire.decodePayload body = .ok []) →
      ∃ reason, decode body = .error (.malformedBundle reason)
  /-- The length does not matter here. -/
  unsupported : ∀ body payload version, Wire.decodePayload body = .ok payload →
    Wire.HasVersion payload version → ¬(version = 1 ∨ version = 2) →
      decode body = .error (.invalidVersion version)
  short : ∀ body payload version, Wire.decodePayload body = .ok payload →
    Wire.HasVersion payload version → (version = 1 ∨ version = 2) → payload.length < 76 →
      ∃ reason, decode body = .error (.malformedBundle reason)
  malformed : ∀ body payload version, Wire.decodePayload body = .ok payload →
    Wire.HasVersion payload version → (version = 1 ∨ version = 2) → 76 ≤ payload.length →
      ¬IsWellFormed payload → ∃ reason, decode body = .error (.invalidKeyMaterial reason)
  decode_encode_iff : ∀ x : PreKeyBundle, decode x.encode = .ok x ↔ x.IsReadable

/-- The reader and the writer of bundles are exact. -/
theorem isDecodedRightly : IsDecodedRightly where
  decode_eq_ok_iff _ _ := decode_eq_ok_iff
  exists_isIn _ := IsWellFormed.exists_isIn
  no_payload _ := decode_of_no_payload
  unsupported := by
    intro body payload version hpayload hversion h
    rw [decode_of_payload hpayload, ofPayload_of_unsupported hversion h]
  short := by
    intro body payload version hpayload hversion h hlength
    rw [decode_of_payload hpayload]
    exact ofPayload_of_short hversion h hlength
  malformed := by
    intro body payload version hpayload hversion h hlength hform
    rw [decode_of_payload hpayload]
    exact ofPayload_of_malformed hversion h hlength hform
  decode_encode_iff _ := decode_encode_iff

/-! ## The message inside -/

/-- The body is a whole message of ciphertext, of a version, with these bytes. -/
structure OpensAs (body : String) (version : UInt8) (inner : Bytes) : Prop where
  kind : KindSource.sniffed.kindOf body = .secureCiphertext
  whole : Wire.splitPart? body = none
  payload : ∃ head, Wire.messageVersion head = version ∧
    Wire.decodePayload body = .ok (head :: inner)

/-- The message inside a bundle is taken out with every byte of it. -/
theorem opensAs_innerBody (h : x.version = 1 ∨ x.version = 2) :
    OpensAs x.innerBody x.version x.inner where
  kind := Wire.kindOf_encodeBody ..
  whole := Wire.splitPart?_encodeBody ..
  payload := ⟨Wire.versionByte x.version, Wire.messageVersion_versionByte h,
    Wire.decodePayload_encodeBody ..⟩

end SecureInbox.PreKeyBundle
