import SecureInbox.Key.Bundle
import SecureInbox.Key.Exchange
import SecureInbox.Proofs.Wire

/-!
# One reading for every text

A text is read in one way only. What was written is told apart by its lead, and
what lead it has settles its kind, so no two bodies are written alike. A part
has the marker where the payload would begin, so it is nobody's key material.
Key exchanges and bundles come in payloads of different lengths, so no text is
both, whatever its lead and its transport say.

* `KeyExchange.length_of_ofPayload`, `PreKeyBundle.length_of_ofPayload`: the
  lengths of payloads with key material;
* `Wire.encodeBody_injective`: the kind and the payload of a body are its own;
* `Wire.isUniquelyDecodable`: no text is read in two ways.
-/

namespace SecureInbox

variable {body : String} {payload : Bytes}

/-! ## Lengths -/

theorem KeyExchange.length_of_ofPayload {x : KeyExchange} (h : ofPayload payload = .ok x) :
    payload.length = size := by
  cases payload with
  | nil => exact nomatch h
  | cons head rest =>
    simp only [ofPayload] at h
    split at h
    · exact nomatch h
    · split at h
      · exact nomatch h
      · rename_i hsize
        exact Decidable.not_not.1 hsize

theorem PreKeyBundle.length_of_ofPayload {x : PreKeyBundle} (h : ofPayload payload = .ok x) :
    headSize < payload.length := by
  cases payload with
  | nil => exact nomatch h
  | cons head rest =>
    simp only [ofPayload] at h
    split at h
    · exact nomatch h
    · split at h
      · exact nomatch h
      · rename_i hsize
        exact Nat.not_le.1 hsize

/-- A key exchange is read from the payload of its body. -/
theorem KeyExchange.exists_payload_of_decode {x : KeyExchange} (h : decode body = .ok x) :
    ∃ payload, Wire.decodePayload body = .ok payload ∧ ofPayload payload = .ok x := by
  unfold decode at h
  split at h
  · exact nomatch h
  · rename_i hpayload
    exact ⟨_, hpayload, h⟩

/-- A bundle is read from the payload of its body. -/
theorem PreKeyBundle.exists_payload_of_decode {x : PreKeyBundle} (h : decode body = .ok x) :
    ∃ payload, Wire.decodePayload body = .ok payload ∧ ofPayload payload = .ok x := by
  unfold decode at h
  split at h
  · exact nomatch h
  · rename_i hpayload
    exact ⟨_, hpayload, h⟩

/-! ## Key material in a text -/

/-- The text has no payload, for some cause, so it is read neither as a key
    exchange nor as a bundle. -/
structure Wire.HasNoKeys (body : String) (cause : Base64.Error) : Prop where
  payload : decodePayload body = .error cause
  exchange : KeyExchange.decode body =
    .error (.invalidKeyMaterial ("bad encoding: " ++ cause.message))
  bundle : PreKeyBundle.decode body = .error (.malformedBundle ("bad encoding: " ++ cause.message))

/-- A part carries no key material, whoever takes it for some. -/
theorem Wire.exists_hasNoKeys {kind : Kind} {lead : String} {text : List Char}
    (h : splitPart? body = some (kind, lead, text)) : ∃ cause, HasNoKeys body cause := by
  obtain ⟨cause, hcause⟩ := decodePayload_of_splitPart? h
  refine ⟨cause, hcause, ?_, ?_⟩
  · rw [KeyExchange.decode, hcause]
  · rw [PreKeyBundle.decode, hcause]

/-- What has a payload is no part. -/
theorem Wire.splitPart?_of_decodePayload (h : decodePayload body = .ok payload) :
    splitPart? body = none := by
  cases hpart : splitPart? body with
  | none => rfl
  | some part =>
    obtain ⟨cause, hcause⟩ := decodePayload_of_splitPart? hpart
    exact nomatch h.symm.trans hcause

theorem KeyExchange.splitPart?_of_decode {x : KeyExchange} (h : decode body = .ok x) :
    Wire.splitPart? body = none :=
  let ⟨_, hpayload, _⟩ := exists_payload_of_decode h
  Wire.splitPart?_of_decodePayload hpayload

theorem PreKeyBundle.splitPart?_of_decode {x : PreKeyBundle} (h : decode body = .ok x) :
    Wire.splitPart? body = none :=
  let ⟨_, hpayload, _⟩ := exists_payload_of_decode h
  Wire.splitPart?_of_decodePayload hpayload

/-- No text is both a key exchange and a bundle. -/
theorem KeyExchange.decode_ne_ok_of_bundle {x : KeyExchange} {y : PreKeyBundle}
    (hy : PreKeyBundle.decode body = .ok y) : decode body ≠ .ok x := fun hx => by
  obtain ⟨payload, hpayload, hx⟩ := exists_payload_of_decode hx
  obtain ⟨payload', hpayload', hy⟩ := PreKeyBundle.exists_payload_of_decode hy
  obtain rfl : payload = payload' := Except.ok.inj (hpayload.symm.trans hpayload')
  have hlt := PreKeyBundle.length_of_ofPayload hy
  rw [length_of_ofPayload hx] at hlt
  exact absurd hlt (by decide)

namespace Wire

/-! ## Bodies and parts -/

/-- The kind and the payload of a body are its own. -/
theorem encodeBody_injective {kind kind' : Kind} {payload payload' : Bytes}
    (h : encodeBody kind payload = encodeBody kind' payload') :
    kind = kind' ∧ payload = payload' := by
  constructor
  · calc kind
      _ = KindSource.sniffed.kindOf (encodeBody kind payload) := (kindOf_encodeBody ..).symm
      _ = KindSource.sniffed.kindOf (encodeBody kind' payload') := by rw [h]
      _ = kind' := kindOf_encodeBody ..
  · refine Except.ok.inj (ε := Base64.Error) ?_
    calc .ok payload
      _ = decodePayload (encodeBody kind payload) := (decodePayload_encodeBody ..).symm
      _ = decodePayload (encodeBody kind' payload') := by rw [h]
      _ = .ok payload' := decodePayload_encodeBody ..

theorem matchLead?_encodeBody_eq (kind : Kind) (payload : Bytes) :
    matchLead? (encodeBody kind payload) = (leadOf? kind).map (kind, ·) := by
  obtain rfl | ⟨lead, hlead⟩ := eq_plain_or_mem_leads kind
  · rw [matchLead?_encodeBody_plain]
    rfl
  · rw [matchLead?_encodeBody hlead, leadOf?_eq hlead, Option.map_some]

/-- The kind under which parts of messages of a kind travel. -/
def partKind : Kind → Kind
  | .plain => .secureCiphertext
  | kind => kind

theorem encodePart_partKind (kind : Kind) (envelope : Bytes) :
    encodePart (partKind kind) envelope = encodePart kind envelope := by
  cases kind <;> rfl

theorem exists_lead_partKind (kind : Kind) : ∃ lead, (partKind kind, lead) ∈ leads := by
  obtain hplain | hlead := eq_plain_or_mem_leads (partKind kind)
  · cases kind <;> exact nomatch hplain
  · exact hlead

/-- Bodies and parts are read back as they were written, no two bodies are
    written alike, and no text is read in two ways. -/
structure IsUniquelyDecodable : Prop where
  kind_eq : ∀ kind payload, KindSource.sniffed.kindOf (encodeBody kind payload) = kind
  /-- A body begins with the lead of its kind; a plain one has none. -/
  lead_eq : ∀ kind payload,
    matchLead? (encodeBody kind payload) = (leadOf? kind).map (kind, ·)
  whole : ∀ kind payload, splitPart? (encodeBody kind payload) = none
  payload_eq : ∀ kind payload, decodePayload (encodeBody kind payload) = .ok payload
  injective : ∀ {kind kind' payload payload'},
    encodeBody kind payload = encodeBody kind' payload' → kind = kind' ∧ payload = payload'
  /-- A part begins with the lead of its kind, and its envelope is read back. -/
  part : ∀ kind envelope, ∃ lead text, leadOf? (partKind kind) = some lead ∧
    splitPart? (encodePart kind envelope) = some (partKind kind, lead, text) ∧
      decodePart text = .ok envelope
  keyless : ∀ {body}, (splitPart? body).isSome = true → ∃ cause, HasNoKeys body cause
  exclusive : ∀ body x y, ¬(KeyExchange.decode body = .ok x ∧ PreKeyBundle.decode body = .ok y)

/-- No text is read in two ways. -/
theorem isUniquelyDecodable : IsUniquelyDecodable where
  kind_eq := kindOf_encodeBody
  lead_eq := matchLead?_encodeBody_eq
  whole := splitPart?_encodeBody
  payload_eq := decodePayload_encodeBody
  injective := encodeBody_injective
  part := by
    intro kind envelope
    obtain ⟨lead, hlead⟩ := exists_lead_partKind kind
    refine ⟨lead, Base64.encode envelope, leadOf?_eq hlead, ?_, decodePart_encode envelope⟩
    rw [← encodePart_partKind, splitPart?_encodePart hlead]
  keyless := by
    intro body hpart
    obtain ⟨⟨kind, lead, text⟩, htext⟩ := Option.isSome_iff_exists.1 hpart
    exact exists_hasNoKeys htext
  exclusive := fun _ _ _ ⟨hx, hy⟩ => KeyExchange.decode_ne_ok_of_bundle hy hx

end Wire

end SecureInbox
