import SecureInbox.Proofs.Key.Format

/-!
# Key exchanges, read and written

A text is read as a key exchange exactly when its payload has 71 bytes, a version
that is understood and two valid keys, and what is read is then what stands in the
fields. Any other text is refused for the first of its faults: that it has no
payload, then the version, then the length, then the keys.

An exchange is read back as it was written, unless its version is none of the two
that are understood (one that does not fit its half byte is cut off) or a key has
only zeros. No text gives such an exchange, so reading, writing and reading again
changes nothing.

* `KeyExchange.decode_eq_ok_iff`: which texts are read, and as which exchange;
* `KeyExchange.decode_encode_iff`: which exchanges are read back;
* `KeyExchange.isExactlyDecodable`: both, and the faults of all other texts.
-/

namespace SecureInbox.KeyExchange

variable {body : String} {payload : Bytes} {x : KeyExchange}

/-- The payload is that of a key exchange. -/
structure IsWellFormed (payload : Bytes) : Prop where
  length : payload.length = 71
  supported : ∃ version, Wire.HasVersion payload version ∧ (version = 1 ∨ version = 2)
  publicKey : PublicKey.IsWritten (payload.field 5 33)
  identityKey : PublicKey.IsWritten (payload.field 38 33)

/-- The exchange is what stands in the fields of a payload. -/
structure IsIn (x : KeyExchange) (payload : Bytes) : Prop where
  version : Wire.HasVersion payload x.version
  sequence : x.sequence.toNat = Bytes.number (payload.field 1 4)
  publicKey : x.publicKey.bytes = payload.field 5 33
  identityKey : x.identityKey.key.bytes = payload.field 38 33

/-- The version is looked at first, whatever the length. -/
theorem ofPayload_of_unsupported {version : UInt8} (hversion : Wire.HasVersion payload version)
    (h : ¬(version = 1 ∨ version = 2)) : ofPayload payload = .error (.invalidVersion version) := by
  obtain ⟨head, rest, rfl, rfl⟩ := hversion.exists_eq_cons
  rw [← Wire.isSupported_iff, Bool.not_eq_true] at h
  simp [ofPayload, h]

/-- The length is looked at next. -/
theorem ofPayload_of_length {version : UInt8} (hversion : Wire.HasVersion payload version)
    (h : version = 1 ∨ version = 2) (hlength : payload.length ≠ 71) :
    ∃ reason, ofPayload payload = .error (.invalidKeyMaterial reason) := by
  obtain ⟨head, rest, rfl, rfl⟩ := hversion.exists_eq_cons
  rw [← Wire.isSupported_iff] at h
  rw [List.length_cons] at hlength
  simp only [ofPayload, h, Bool.not_true, Bool.false_eq_true, if_false]
  exact ⟨_, if_pos hlength⟩

/-- In a payload of the right length the keys are read from their fields. -/
theorem ofPayload_of_length_eq {version : UInt8} (hversion : Wire.HasVersion payload version)
    (h : version = 1 ∨ version = 2) (hlength : payload.length = 71) :
    ofPayload payload = do
      let publicKey ← PublicKey.ofBytes (payload.field 5 33)
      let identityKey ← PublicKey.ofBytes (payload.field 38 33)
      return ⟨version, Bytes.firstWord (payload.drop 1), publicKey, ⟨identityKey⟩⟩ := by
  obtain ⟨head, rest, rfl, rfl⟩ := hversion.exists_eq_cons
  rw [← Wire.isSupported_iff] at h
  rw [List.length_cons] at hlength
  have htail : rest.drop 37 = Bytes.field (head :: rest) 38 33 := by
    rw [Bytes.field_cons_succ, Bytes.field, List.take_of_length_le]
    rw [List.length_drop]
    omega
  simp only [ofPayload, h, size, hlength, htail]
  rfl

theorem ofPayload_eq_ok_iff :
    ofPayload payload = .ok x ↔ IsWellFormed payload ∧ x.IsIn payload := by
  constructor
  · intro h
    -- What was read has passed the version and the length, so the keys are all that is left.
    have hlength : payload.length = 71 := length_of_ofPayload h
    obtain ⟨version, hversion⟩ := Wire.exists_hasVersion (List.ne_nil_of_length_eq_add_one hlength)
    have hsupported : version = 1 ∨ version = 2 := Decidable.byContradiction fun hunsupported =>
      nomatch h.symm.trans (ofPayload_of_unsupported hversion hunsupported)
    rw [ofPayload_of_length_eq hversion hsupported hlength, PublicKey.ofBytes_bind_eq_ok_iff] at h
    obtain ⟨⟨hpublic, hidentity⟩, publicKey, identityKey, hkey, hkey', rfl⟩ := h
    exact ⟨⟨hlength, ⟨version, hversion, hsupported⟩, hpublic, hidentity⟩,
      ⟨hversion, Bytes.toNat_firstWord_drop (by omega), hkey, hkey'⟩⟩
  · rintro ⟨⟨hlength, ⟨version, hversion, hsupported⟩, hpublic, hidentity⟩, hin⟩
    obtain rfl := hversion.unique hin.version
    rw [ofPayload_of_length_eq hversion hsupported hlength, PublicKey.ofBytes_bind_eq_ok_iff]
    refine ⟨⟨hpublic, hidentity⟩, x.publicKey, x.identityKey.key, hin.publicKey,
      hin.identityKey, ?_⟩
    have hsequence : x.sequence = Bytes.firstWord (payload.drop 1) :=
      UInt32.toNat_inj.1 (hin.sequence.trans (Bytes.toNat_firstWord_drop (by omega)).symm)
    rw [← hsequence]

/-! ## The exchange that is written -/

theorem payload_eq (x : KeyExchange) :
    x.payload = [Wire.versionByte x.version] ++ (Bytes.ofWord x.sequence ++
      (x.publicKey.bytes ++ (x.identityKey.key.bytes ++ []))) := by
  simp [payload]

@[simp]
theorem length_payload (x : KeyExchange) : x.payload.length = 71 := by
  simp [payload]

theorem field_sequence (x : KeyExchange) : x.payload.field 1 4 = Bytes.ofWord x.sequence := by
  rw [payload_eq]
  exact Bytes.field_append rfl rfl _

theorem field_publicKey (x : KeyExchange) : x.payload.field 5 33 = x.publicKey.bytes := by
  rw [payload_eq, ← List.append_assoc]
  exact Bytes.field_append rfl x.publicKey.length_bytes _

theorem field_identityKey (x : KeyExchange) :
    x.payload.field 38 33 = x.identityKey.key.bytes := by
  rw [payload_eq, ← List.append_assoc, ← List.append_assoc]
  exact Bytes.field_append (by simp) x.identityKey.key.length_bytes _

/-- What was written stands in the payload, if its version does. -/
theorem isIn_payload (h : Wire.HasVersion x.payload x.version) : x.IsIn x.payload where
  version := h
  sequence := by rw [field_sequence, Bytes.number_ofWord]
  publicKey := x.field_publicKey.symm
  identityKey := x.field_identityKey.symm

/-- The exchange can be read once it is written. -/
structure IsReadable (x : KeyExchange) : Prop where
  version : x.version = 1 ∨ x.version = 2
  publicKey : x.publicKey.IsNonzero
  identityKey : x.identityKey.key.IsNonzero

theorem IsIn.isReadable (h : x.IsIn payload) (hform : IsWellFormed payload) : x.IsReadable := by
  obtain ⟨version, hversion, hsupported⟩ := hform.supported
  obtain rfl := hversion.unique h.version
  refine ⟨hsupported, PublicKey.isWritten_bytes.1 ?_, PublicKey.isWritten_bytes.1 ?_⟩
  · rw [h.publicKey]
    exact hform.publicKey
  · rw [h.identityKey]
    exact hform.identityKey

theorem IsReadable.ofPayload_payload (h : x.IsReadable) : ofPayload x.payload = .ok x := by
  have hversion : Wire.HasVersion x.payload x.version :=
    Wire.hasVersion_cons.2 (Wire.messageVersion_versionByte h.version).symm
  refine ofPayload_eq_ok_iff.2 ⟨⟨x.length_payload, ⟨_, hversion, h.version⟩, ?_, ?_⟩,
    isIn_payload hversion⟩
  · rw [field_publicKey]
    exact PublicKey.isWritten_bytes.2 h.publicKey
  · rw [field_identityKey]
    exact PublicKey.isWritten_bytes.2 h.identityKey

/-! ## Every text -/

theorem decode_of_payload (h : Wire.decodePayload body = .ok payload) :
    decode body = ofPayload payload := by
  rw [decode, h]

theorem decode_encode (x : KeyExchange) : decode x.encode = ofPayload x.payload :=
  decode_of_payload (Wire.decodePayload_encodeBody ..)

theorem decode_eq_ok_iff : decode body = .ok x ↔
    ∃ payload, Wire.decodePayload body = .ok payload ∧ IsWellFormed payload ∧ x.IsIn payload := by
  constructor
  · intro h
    obtain ⟨payload, hpayload, h⟩ := exists_payload_of_decode h
    exact ⟨payload, hpayload, ofPayload_eq_ok_iff.1 h⟩
  · rintro ⟨payload, hpayload, h⟩
    rw [decode_of_payload hpayload]
    exact ofPayload_eq_ok_iff.2 h

theorem decode_encode_iff : decode x.encode = .ok x ↔ x.IsReadable := by
  rw [decode_encode]
  constructor
  · intro h
    obtain ⟨hform, hin⟩ := ofPayload_eq_ok_iff.1 h
    exact hin.isReadable hform
  · exact IsReadable.ofPayload_payload

theorem isReadable_of_decode (h : decode body = .ok x) : x.IsReadable := by
  obtain ⟨payload, -, hform, hin⟩ := decode_eq_ok_iff.1 h
  exact hin.isReadable hform

theorem IsWellFormed.exists_isIn (h : IsWellFormed payload) :
    ∃ x : KeyExchange, x.IsIn payload := by
  obtain ⟨hlength, ⟨version, hversion, -⟩, hpublic, hidentity⟩ := h
  obtain ⟨publicKey, hpublic⟩ := hpublic.exists_bytes_eq
  obtain ⟨identityKey, hidentity⟩ := hidentity.exists_bytes_eq
  exact ⟨⟨version, Bytes.firstWord (payload.drop 1), publicKey, ⟨identityKey⟩⟩, hversion,
    Bytes.toNat_firstWord_drop (by omega), hpublic, hidentity⟩

theorem decode_of_no_payload (h : (∃ cause, Wire.decodePayload body = .error cause) ∨
    Wire.decodePayload body = .ok []) :
    ∃ reason, decode body = .error (.invalidKeyMaterial reason) := by
  obtain ⟨cause, h⟩ | h := h
  · exact ⟨_, by rw [decode, h]⟩
  · exact ⟨_, by rw [decode_of_payload h, ofPayload]⟩

/-- What has a version that is understood, but not the form, is refused for its
    length or for its keys, with one and the same fault. -/
theorem ofPayload_of_malformed {version : UInt8} (hversion : Wire.HasVersion payload version)
    (h : version = 1 ∨ version = 2) (hform : ¬IsWellFormed payload) :
    ∃ reason, ofPayload payload = .error (.invalidKeyMaterial reason) := by
  by_cases hlength : payload.length = 71
  · rw [ofPayload_of_length_eq hversion h hlength]
    exact PublicKey.ofBytes_bind_eq_error fun hkeys =>
      hform ⟨hlength, ⟨version, hversion, h⟩, hkeys.1, hkeys.2⟩
  · exact ofPayload_of_length hversion h hlength

/-- Which texts are a key exchange, and which exchange; why the others are
    none; and what is read back as it was written. -/
structure IsExactlyDecodable : Prop where
  decode_eq_ok_iff : ∀ body x, decode body = .ok x ↔
    ∃ payload, Wire.decodePayload body = .ok payload ∧ IsWellFormed payload ∧ x.IsIn payload
  /-- Every payload of the right form has an exchange in it. -/
  exists_isIn : ∀ payload, IsWellFormed payload → ∃ x : KeyExchange, x.IsIn payload
  no_payload : ∀ body,
    ((∃ cause, Wire.decodePayload body = .error cause) ∨ Wire.decodePayload body = .ok []) →
      ∃ reason, decode body = .error (.invalidKeyMaterial reason)
  /-- The length does not matter here. -/
  unsupported : ∀ body payload version, Wire.decodePayload body = .ok payload →
    Wire.HasVersion payload version → ¬(version = 1 ∨ version = 2) →
      decode body = .error (.invalidVersion version)
  malformed : ∀ body payload version, Wire.decodePayload body = .ok payload →
    Wire.HasVersion payload version → (version = 1 ∨ version = 2) → ¬IsWellFormed payload →
      ∃ reason, decode body = .error (.invalidKeyMaterial reason)
  decode_encode_iff : ∀ x : KeyExchange, decode x.encode = .ok x ↔ x.IsReadable
  /-- What was read is written so that it is read again. -/
  stable : ∀ body x, decode body = .ok x → decode x.encode = decode body

/-- The reader and the writer of key exchanges are exact. -/
theorem isExactlyDecodable : IsExactlyDecodable where
  decode_eq_ok_iff _ _ := decode_eq_ok_iff
  exists_isIn _ := IsWellFormed.exists_isIn
  no_payload _ := decode_of_no_payload
  unsupported := by
    intro body payload version hpayload hversion h
    rw [decode_of_payload hpayload, ofPayload_of_unsupported hversion h]
  malformed := by
    intro body payload version hpayload hversion h hform
    rw [decode_of_payload hpayload]
    exact ofPayload_of_malformed hversion h hform
  decode_encode_iff _ := decode_encode_iff
  stable := by
    intro body x h
    rw [h, decode_encode_iff]
    exact isReadable_of_decode h

end SecureInbox.KeyExchange
