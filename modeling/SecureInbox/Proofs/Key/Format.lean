import SecureInbox.Proofs.Key.Material

/-!
# The fields of key material

A payload with key material has its fields at fixed offsets: a version in the high
half of the first byte, numbers with the most significant byte first, and keys of
33 bytes. What is read of it is told here by the fields, and what is written by
what stands in them, for key exchanges and for bundles alike.

* `Bytes.field_append`, `Bytes.toNat_firstWord_drop`: what stands in a field, and
  the number it writes;
* `Wire.HasVersion.unique`, `Wire.messageVersion_versionByte`: a payload has one
  version, which is read back if it is understood;
* `PublicKey.ofBytes_eq_ok_iff`: which bytes are a key, and which key.
-/

namespace SecureInbox

/-! ## Fields -/

namespace Bytes

/-- The field that stands at an offset. -/
def field (bytes : Bytes) (offset size : Nat) : Bytes := (bytes.drop offset).take size

/-- The number that some bytes write, the most significant first. -/
def number (bytes : Bytes) : Nat := bytes.foldl (fun n b => n * 256 + b.toNat) 0

@[simp]
theorem field_cons_succ (b : UInt8) (bytes : Bytes) (offset size : Nat) :
    field (b :: bytes) (offset + 1) size = bytes.field offset size := rfl

/-- A field is read off from between what comes before it and what comes after. -/
theorem field_append {before middle : Bytes} {offset size : Nat} (hoffset : before.length = offset)
    (hsize : middle.length = size) (after : Bytes) :
    field (before ++ (middle ++ after)) offset size = middle := by
  rw [field, ← hoffset, ← hsize, List.drop_left, List.take_left]

theorem toNat_toWord (a b c d : UInt8) : (toWord a b c d).toNat = number [a, b, c, d] := by
  have ha := a.toNat_lt
  have hb := b.toNat_lt
  have hc := c.toNat_lt
  have hd := d.toNat_lt
  simp only [toWord, UInt32.toNat_ofNat', number, List.foldl_cons, List.foldl_nil]
  omega

theorem number_ofWord (w : UInt32) : number (ofWord w) = w.toNat := by
  have h := congrArg UInt32.toNat (firstWord_ofWord_append w [])
  rwa [ofWord, List.append_nil, firstWord, toNat_toWord] at h

/-- The first word is the number in the first four bytes. -/
theorem toNat_firstWord {bytes : Bytes} (h : 4 ≤ bytes.length) :
    (firstWord bytes).toNat = number (bytes.field 0 4) := by
  match bytes, h with
  | a :: b :: c :: d :: _, _ => exact toNat_toWord a b c d

/-- A word at an offset is the number in its field. -/
theorem toNat_firstWord_drop {bytes : Bytes} {offset : Nat} (h : offset + 4 ≤ bytes.length) :
    (firstWord (bytes.drop offset)).toNat = number (bytes.field offset 4) :=
  toNat_firstWord (by rw [List.length_drop]; omega)

end Bytes

/-! ## Versions -/

namespace Wire

/-- The payload has a first byte, and the version is its high half. -/
def HasVersion (payload : Bytes) (version : UInt8) : Prop :=
  ∃ head ∈ payload.head?, version.toNat = head.toNat / 16

theorem toNat_messageVersion (b : UInt8) : (messageVersion b).toNat = b.toNat / 16 :=
  UInt8.toNat_div ..

theorem hasVersion_cons {head : UInt8} {rest : Bytes} {version : UInt8} :
    HasVersion (head :: rest) version ↔ version = messageVersion head := by
  rw [← UInt8.toNat_inj, toNat_messageVersion]
  simp [HasVersion]

theorem HasVersion.exists_eq_cons {payload : Bytes} {version : UInt8}
    (h : HasVersion payload version) :
    ∃ head rest, payload = head :: rest ∧ messageVersion head = version := by
  cases payload with
  | nil =>
    obtain ⟨head, hhead, -⟩ := h
    exact nomatch hhead
  | cons head rest => exact ⟨head, rest, rfl, (hasVersion_cons.1 h).symm⟩

theorem HasVersion.unique {payload : Bytes} {version version' : UInt8}
    (h : HasVersion payload version) (h' : HasVersion payload version') : version = version' := by
  obtain ⟨head, rest, rfl, rfl⟩ := h.exists_eq_cons
  exact (hasVersion_cons.1 h').symm

theorem exists_hasVersion {payload : Bytes} (h : payload ≠ []) :
    ∃ version, HasVersion payload version := by
  obtain ⟨head, rest, rfl⟩ := List.exists_cons_of_ne_nil h
  exact ⟨messageVersion head, hasVersion_cons.2 rfl⟩

theorem isSupported_iff {version : UInt8} :
    isSupported version = true ↔ version = 1 ∨ version = 2 := by
  simp only [isSupported, minVersion, currentVersion, Bool.and_eq_true, decide_eq_true_eq,
    UInt8.le_iff_toNat_le, ← UInt8.toNat_inj]
  have h1 : (1 : UInt8).toNat = 1 := rfl
  have h2 : (2 : UInt8).toNat = 2 := rfl
  omega

/-- A version that is understood fits its half of the version byte. -/
theorem messageVersion_versionByte {version : UInt8} (h : version = 1 ∨ version = 2) :
    messageVersion (versionByte version) = version := by
  obtain rfl | rfl := h <;> rfl

end Wire

/-! ## Keys -/

namespace PublicKey

variable {bytes : Bytes} {k : PublicKey}

/-- The key has more than zeros. -/
def IsNonzero (k : PublicKey) : Prop := ∃ b ∈ k.raw.1, b ≠ 0

/-- The bytes write a valid key. -/
structure IsWritten (bytes : Bytes) : Prop where
  length : bytes.length = 33
  type : bytes.head? = some 5
  nonzero : ∃ b ∈ bytes.tail, b ≠ 0

@[simp]
theorem length_bytes (k : PublicKey) : k.bytes.length = 33 := by
  rw [bytes, List.length_cons, k.raw.2]

/-- What is written of a key is a valid one if the key is no zero. -/
theorem isWritten_bytes : IsWritten k.bytes ↔ k.IsNonzero :=
  ⟨fun h => h.nonzero, fun h => ⟨k.length_bytes, rfl, h⟩⟩

/-- Bytes are read as a key if they write a valid one, and as no other. -/
theorem ofBytes_eq_ok_iff : ofBytes bytes = .ok k ↔ IsWritten bytes ∧ k.bytes = bytes := by
  constructor
  · intro h
    unfold ofBytes at h
    split at h
    · rename_i type raw
      split at h
      · rename_i hlength
        split at h
        · exact nomatch h
        · rename_i htype
          obtain rfl : type = typeByte := Decidable.not_not.1 htype
          split at h
          · exact nomatch h
          · rename_i hzero
            obtain rfl := Except.ok.inj h
            have hnonzero : IsNonzero ⟨raw, hlength⟩ := by simpa [IsNonzero] using hzero
            exact ⟨isWritten_bytes.2 hnonzero, rfl⟩
      · exact nomatch h
    · exact nomatch h
  · rintro ⟨h, rfl⟩
    have hnonzero : ¬(k.raw.1.all (· == 0)) = true := by
      simpa [IsNonzero] using isWritten_bytes.1 h
    simp only [ofBytes, bytes, k.raw.2, hnonzero]
    rfl

/-- Bytes that write a valid key are read as one. -/
theorem IsWritten.exists_bytes_eq (h : IsWritten bytes) : ∃ k : PublicKey, k.bytes = bytes := by
  obtain ⟨hlength, htype, -⟩ := h
  cases bytes with
  | nil => exact nomatch htype
  | cons type raw =>
    obtain rfl : type = 5 := Option.some.inj htype
    exact ⟨⟨raw, Nat.succ.inj hlength⟩, rfl⟩

/-- Bytes that are no key are refused as invalid key material. -/
theorem exists_reason_of_ofBytes {fault : KeyError} (h : ofBytes bytes = .error fault) :
    ∃ reason, fault = .invalidKeyMaterial reason := by
  unfold ofBytes at h
  split at h
  · split at h
    · split at h
      · exact ⟨_, (Except.error.inj h).symm⟩
      · split at h
        · exact ⟨_, (Except.error.inj h).symm⟩
        · exact nomatch h
    · exact ⟨_, (Except.error.inj h).symm⟩
  · exact ⟨_, (Except.error.inj h).symm⟩

/-! Both formats have two keys, read one after the other. -/

section

variable {α : Type} {first second : Bytes} {make : PublicKey → PublicKey → α}

theorem ofBytes_bind_eq_ok_iff {x : α} :
    (do let k ← ofBytes first; let l ← ofBytes second; return make k l :
      Except KeyError α) = .ok x ↔ (IsWritten first ∧ IsWritten second) ∧
        ∃ k l : PublicKey, k.bytes = first ∧ l.bytes = second ∧ make k l = x := by
  constructor
  · intro h
    cases hk : ofBytes first with
    | error fault =>
      rw [hk] at h
      exact nomatch h
    | ok k =>
      cases hl : ofBytes second with
      | error fault =>
        rw [hk, hl] at h
        exact nomatch h
      | ok l =>
        rw [hk, hl] at h
        obtain ⟨hfirst, hk⟩ := ofBytes_eq_ok_iff.1 hk
        obtain ⟨hsecond, hl⟩ := ofBytes_eq_ok_iff.1 hl
        exact ⟨⟨hfirst, hsecond⟩, k, l, hk, hl, Except.ok.inj h⟩
  · rintro ⟨⟨hfirst, hsecond⟩, k, l, hk, hl, rfl⟩
    rw [ofBytes_eq_ok_iff.2 ⟨hfirst, hk⟩, ofBytes_eq_ok_iff.2 ⟨hsecond, hl⟩]
    rfl

/-- If one of two keys is not valid, neither is what they are part of. -/
theorem ofBytes_bind_eq_error (h : ¬(IsWritten first ∧ IsWritten second)) :
    ∃ reason, (do let k ← ofBytes first; let l ← ofBytes second; return make k l :
      Except KeyError α) = .error (.invalidKeyMaterial reason) := by
  cases hk : ofBytes first with
  | error fault =>
    obtain ⟨reason, rfl⟩ := exists_reason_of_ofBytes hk
    exact ⟨reason, rfl⟩
  | ok k =>
    cases hl : ofBytes second with
    | error fault =>
      obtain ⟨reason, rfl⟩ := exists_reason_of_ofBytes hl
      exact ⟨reason, rfl⟩
    | ok l => exact absurd ⟨(ofBytes_eq_ok_iff.1 hk).1, (ofBytes_eq_ok_iff.1 hl).1⟩ h

end

end PublicKey

end SecureInbox
