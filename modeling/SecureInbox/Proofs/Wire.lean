import SecureInbox.Message.Source
import SecureInbox.Proofs.Text.Base64
import SecureInbox.Wire

/-!
# Reading bodies back

A body is told apart by what follows its lead. Base64 has neither the question
mark that every lead begins with, nor the colon that makes the lead of a key
exchange into that of a bundle, nor the marker of parts, so a body that was
written is read back as it was meant:

* `Wire.matchLead?_encodeBody`, `Wire.decodePayload_encodeBody`: the lead and the
  payload of a whole message; a plain one has no lead;
* `Wire.splitPart?_encodeBody`: a whole message is no part;
* `Wire.splitPart?_encodePart`, `Wire.decodePart_encode`: the lead and the
  envelope of a part;
* `Wire.decodePayload_of_splitPart?`: a part carries no payload.
-/

namespace SecureInbox.Wire

variable {kind : Kind} {lead : String} {text : List Char}

/-! ## Leads -/

theorem mem_leads_of_matchLead? {body : String} (h : matchLead? body = some (kind, lead)) :
    (kind, lead) ∈ leads :=
  List.mem_of_find?_eq_some h

theorem isSpecial_of_matchLead? {body : String} (h : matchLead? body = some (kind, lead)) :
    isSpecial body = true := by
  rw [isSpecial, h]
  rfl

/-- One of the three leads and its kind. -/
theorem eq_of_mem_leads (h : (kind, lead) ∈ leads) :
    (kind = .preKeyBundle ∧ lead = bundleLead) ∨ (kind = .keyExchange ∧ lead = exchangeLead) ∨
      (kind = .secureCiphertext ∧ lead = cipherLead) := by
  simpa [leads] using h

theorem kindOfLead_eq (h : (kind, lead) ∈ leads) : kindOfLead lead = kind := by
  obtain ⟨rfl, rfl⟩ | ⟨rfl, rfl⟩ | ⟨rfl, rfl⟩ := eq_of_mem_leads h <;> rfl

theorem leadOf?_eq (h : (kind, lead) ∈ leads) : leadOf? kind = some lead := by
  obtain ⟨rfl, rfl⟩ | ⟨rfl, rfl⟩ | ⟨rfl, rfl⟩ := eq_of_mem_leads h <;> rfl

/-- Every kind but the plain one has its lead. -/
theorem eq_plain_or_mem_leads (kind : Kind) :
    kind = .plain ∨ ∃ lead, (kind, lead) ∈ leads := by
  cases kind with
  | plain => exact .inl rfl
  | secureCiphertext => exact .inr ⟨cipherLead, by simp [leads]⟩
  | keyExchange => exact .inr ⟨exchangeLead, by simp [leads]⟩
  | preKeyBundle => exact .inr ⟨bundleLead, by simp [leads]⟩

theorem question_mem_of_mem_leads (h : (kind, lead) ∈ leads) : '?' ∈ lead.toList := by
  obtain ⟨rfl, rfl⟩ | ⟨rfl, rfl⟩ | ⟨rfl, rfl⟩ := eq_of_mem_leads h <;> decide

/-- A lead is read back, unless a colon makes it into a longer one. -/
theorem matchLead?_append (h : (kind, lead) ∈ leads) (htext : ':' ∉ text) :
    matchLead? (String.ofList (lead.toList ++ text)) = some (kind, lead) := by
  have hbundle : "?TSKP:".toList = ['?', 'T', 'S', 'K', 'P', ':'] := rfl
  have hexchange : "?TSK".toList = ['?', 'T', 'S', 'K'] := rfl
  have hcipher : "?TSM".toList = ['?', 'T', 'S', 'M'] := rfl
  -- The lead of a bundle goes on from that of an exchange with a colon in it, so it
  -- does not begin what follows here.
  have hlonger : ['P', ':'].isPrefixOf text = false := by
    refine Bool.eq_false_iff.2 fun hprefix => htext ?_
    exact (List.isPrefixOf_iff_prefix.1 hprefix).subset (by simp)
  obtain ⟨rfl, rfl⟩ | ⟨rfl, rfl⟩ | ⟨rfl, rfl⟩ := eq_of_mem_leads h <;>
    simp [matchLead?, leads, bundleLead, exchangeLead, cipherLead, hbundle, hexchange, hcipher,
      hlonger]

theorem afterLead_append (h : (kind, lead) ∈ leads) (htext : ':' ∉ text) :
    afterLead (String.ofList (lead.toList ++ text)) = text := by
  rw [afterLead, matchLead?_append h htext]
  simp

/-! ## Whole messages -/

theorem encodeBody_eq (h : (kind, lead) ∈ leads) (payload : Bytes) :
    encodeBody kind payload = String.ofList (lead.toList ++ Base64.encode payload) := by
  rw [encodeBody, leadOf?_eq h, Option.getD_some]

theorem colon_notMem_encode (bytes : Bytes) : ':' ∉ Base64.encode bytes := fun h =>
  absurd (Base64.isSymbol_of_mem_encode h).isAlphanum_or (by decide)

theorem marker_notMem_encode (bytes : Bytes) : partMarker ∉ Base64.encode bytes := fun h =>
  absurd (Base64.isSymbol_of_mem_encode h).isAlphanum_or (by decide)

theorem question_notMem_encode (bytes : Bytes) : '?' ∉ Base64.encode bytes := fun h =>
  absurd (Base64.isSymbol_of_mem_encode h).isAlphanum_or (by decide)

theorem matchLead?_encodeBody (h : (kind, lead) ∈ leads) (payload : Bytes) :
    matchLead? (encodeBody kind payload) = some (kind, lead) := by
  rw [encodeBody_eq h, matchLead?_append h (colon_notMem_encode payload)]

theorem matchLead?_encodeBody_plain (payload : Bytes) :
    matchLead? (encodeBody .plain payload) = none := by
  refine List.find?_eq_none.2 fun ⟨kind, lead⟩ hlead hprefix => ?_
  have hbody : (encodeBody .plain payload).toList = Base64.encode payload := String.toList_ofList
  rw [hbody] at hprefix
  exact question_notMem_encode payload
    ((List.isPrefixOf_iff_prefix.1 hprefix).subset (question_mem_of_mem_leads hlead))

/-- The kind of a body is read back. -/
theorem kindOf_encodeBody (kind : Kind) (payload : Bytes) :
    KindSource.sniffed.kindOf (encodeBody kind payload) = kind := by
  obtain rfl | ⟨lead, hlead⟩ := eq_plain_or_mem_leads kind
  · rw [KindSource.kindOf, matchLead?_encodeBody_plain]
    rfl
  · rw [KindSource.kindOf, matchLead?_encodeBody hlead]
    rfl

theorem afterLead_encodeBody (kind : Kind) (payload : Bytes) :
    afterLead (encodeBody kind payload) = Base64.encode payload := by
  obtain rfl | ⟨lead, hlead⟩ := eq_plain_or_mem_leads kind
  · rw [afterLead, matchLead?_encodeBody_plain]
    exact String.toList_ofList
  · rw [encodeBody_eq hlead, afterLead_append hlead (colon_notMem_encode payload)]

/-- The payload of a body is read back. -/
theorem decodePayload_encodeBody (kind : Kind) (payload : Bytes) :
    decodePayload (encodeBody kind payload) = .ok payload := by
  rw [decodePayload, afterLead_encodeBody, Base64.trimEnd_encode, Base64.decode_encode]

/-- What follows the lead of a part. -/
theorem afterLead_of_splitPart? {body : String} {envelope : List Char}
    (h : splitPart? body = some (kind, lead, envelope)) :
    afterLead body = partMarker :: envelope := by
  unfold splitPart? at h
  split at h
  · rename_i hafter
    split at h
    · rename_i hmarker
      cases h
      rw [hafter, hmarker]
    · exact nomatch h
  · exact nomatch h

/-- A whole message is no part. -/
theorem splitPart?_encodeBody (kind : Kind) (payload : Bytes) :
    splitPart? (encodeBody kind payload) = none := by
  cases hpart : splitPart? (encodeBody kind payload) with
  | none => rfl
  | some part =>
    have hafter := afterLead_of_splitPart? hpart
    rw [afterLead_encodeBody] at hafter
    exact absurd (hafter ▸ List.mem_cons_self) (marker_notMem_encode payload)

/-! ## Parts -/

theorem encodePart_eq (h : (kind, lead) ∈ leads) (envelope : Bytes) :
    encodePart kind envelope =
      String.ofList (lead.toList ++ partMarker :: Base64.encode envelope) := by
  rw [encodePart, leadOf?_eq h, Option.getD_some]

theorem colon_notMem_marked (envelope : Bytes) : ':' ∉ partMarker :: Base64.encode envelope := by
  rw [List.mem_cons, not_or]
  exact ⟨by decide, colon_notMem_encode envelope⟩

theorem matchLead?_encodePart (h : (kind, lead) ∈ leads) (envelope : Bytes) :
    matchLead? (encodePart kind envelope) = some (kind, lead) := by
  rw [encodePart_eq h, matchLead?_append h (colon_notMem_marked envelope)]

/-- The lead and the envelope of a part are read back. -/
theorem splitPart?_encodePart (h : (kind, lead) ∈ leads) (envelope : Bytes) :
    splitPart? (encodePart kind envelope) = some (kind, lead, Base64.encode envelope) := by
  rw [splitPart?, encodePart_eq h, matchLead?_append h (colon_notMem_marked envelope),
    afterLead_append h (colon_notMem_marked envelope)]
  exact if_pos rfl

theorem decodePart_encode (envelope : Bytes) :
    decodePart (Base64.encode envelope) = .ok envelope := by
  rw [decodePart, Base64.trimEnd_encode, Base64.decode_encode]

/-- A part carries no payload. -/
theorem decodePayload_of_splitPart? {body : String} {envelope : List Char}
    (h : splitPart? body = some (kind, lead, envelope)) :
    ∃ cause, decodePayload body = .error cause := by
  obtain ⟨rest, hrest⟩ := Text.exists_trimEnd_cons (show Text.isBlank partMarker = false by decide)
    envelope
  rw [decodePayload, afterLead_of_splitPart? h, hrest]
  exact Base64.decode_foreign (fun h => absurd h.isAlphanum_or (by decide)) (by decide) rest

/-- What is read off as a part stands under its own lead. -/
theorem matchLead?_of_splitPart? {body : String} {envelope : List Char}
    (h : splitPart? body = some (kind, lead, envelope)) : matchLead? body = some (kind, lead) := by
  unfold splitPart? at h
  split at h
  · rename_i hlead _
    split at h <;> cases h
    exact hlead
  · exact nomatch h

theorem mem_leads_of_splitPart? {body : String} {envelope : List Char}
    (h : splitPart? body = some (kind, lead, envelope)) : (kind, lead) ∈ leads :=
  mem_leads_of_matchLead? (matchLead?_of_splitPart? h)

end SecureInbox.Wire
