import SecureInbox.Proofs.Text.Bits
import SecureInbox.Proofs.Wire

/-!
# Canonical bodies

A body carries a payload if after its lead it is the base64 of the payload and nothing
more than padding and blanks (`Wire.Carries`). Those are the bodies that are decoded, so
a payload is told by the symbols alone:

* `Wire.decodePayload_eq_ok_iff`, `Wire.decodePart_eq_ok_iff`: which texts are decoded,
  and to what;
* `Wire.eq_encodeBody_iff`: without padding and blanks there is one body for a kind and
  a payload, the one that is written.
-/

namespace SecureInbox.Wire

/-- The lead that a body begins with, and nothing if it has none. -/
def leadText (body : String) : List Char := ((matchLead? body).map (·.2.toList)).getD []

/-- After the lead, the text is the base64 of the payload, with padding after it up to a
    whole group of four and blanks after that. -/
def Carries (lead text : List Char) (payload : Bytes) : Prop :=
  ∃ symbols pads blanks, Base64.IsBase64 symbols payload ∧ pads ≤ (3 - payload.length % 3) % 3 ∧
    (∀ c ∈ blanks, Text.isBlank c = true) ∧
      text = lead ++ symbols ++ List.replicate pads '=' ++ blanks

/-- There is neither padding nor a blank after the lead. -/
def IsBare (body : String) : Prop := ∀ c ∈ afterLead body, c ≠ '=' ∧ Text.isBlank c = false

variable {body : String} {payload : Bytes}

/-- A body is its lead and what comes after it. -/
theorem toList_eq (body : String) : body.toList = leadText body ++ afterLead body := by
  rw [leadText, afterLead]
  cases h : matchLead? body with
  | none => rfl
  | some lead =>
    have hprefix : lead.2.toList <+: body.toList :=
      List.isPrefixOf_iff_prefix.1 (List.find?_some (p := fun lead : Kind × String =>
        lead.2.toList.isPrefixOf body.toList) h)
    exact (List.prefix_iff_eq_append.1 hprefix).symm

theorem decodePart_eq_ok_iff {text : List Char} {envelope : Bytes} :
    decodePart text = .ok envelope ↔ Carries [] text envelope := by
  simp only [decodePart, Base64.decode_trimEnd_eq_ok_iff, Carries, Base64.isBase64_iff,
    List.nil_append]
  constructor
  · rintro ⟨pads, hle, blanks, hblanks, rfl⟩
    exact ⟨_, pads, blanks, rfl, hle, hblanks, rfl⟩
  · rintro ⟨_, pads, blanks, rfl, hle, hblanks, rfl⟩
    exact ⟨pads, hle, blanks, hblanks, rfl⟩

theorem decodePayload_eq_ok_iff :
    decodePayload body = .ok payload ↔ Carries (leadText body) body.toList payload := by
  rw [show decodePayload body = decodePart (afterLead body) from rfl, decodePart_eq_ok_iff]
  simp only [Carries, toList_eq body, List.nil_append, List.append_assoc, List.append_cancel_left_eq]

/-- The canonical body under the lead of another one. -/
theorem toList_encodeBody (body : String) (payload : Bytes) :
    (encodeBody (KindSource.sniffed.kindOf body) payload).toList =
      leadText body ++ Base64.encode payload := by
  rw [KindSource.kindOf, leadText]
  cases h : matchLead? body with
  | none => exact String.toList_ofList
  | some lead =>
    rw [Option.map_some, Option.getD_some, encodeBody_eq (mem_leads_of_matchLead? h)]
    exact String.toList_ofList

theorem isBare_encodeBody (kind : Kind) (payload : Bytes) : IsBare (encodeBody kind payload) := by
  intro c hc
  rw [afterLead_encodeBody] at hc
  have hsymbol := Base64.isSymbol_of_mem_encode hc
  refine ⟨?_, hsymbol.isBlank_eq⟩
  rintro rfl
  exact absurd hsymbol.isAlphanum_or (by decide)

/-- A bare body is the canonical one of its kind and its payload. -/
theorem IsBare.eq_encodeBody (h : IsBare body) (hpayload : decodePayload body = .ok payload) :
    body = encodeBody (KindSource.sniffed.kindOf body) payload := by
  obtain ⟨symbols, pads, blanks, hsymbols, -, hblanks, hbody⟩ := decodePayload_eq_ok_iff.1 hpayload
  rw [toList_eq, List.append_assoc, List.append_assoc, List.append_cancel_left_eq] at hbody
  have hpads : List.replicate pads '=' = [] := List.eq_nil_iff_forall_not_mem.2 fun c hc =>
    (h c (by simp [hbody, hc])).1 (List.eq_of_mem_replicate hc)
  have hnone : blanks = [] := List.eq_nil_iff_forall_not_mem.2 fun c hc =>
    Bool.noConfusion ((h c (by simp [hbody, hc])).2.symm.trans (hblanks c hc))
  rw [hpads, hnone, List.append_nil, List.append_nil, Base64.isBase64_iff.1 hsymbols] at hbody
  rw [← String.toList_inj, toList_encodeBody, toList_eq, hbody]

/-- For a kind and a payload there is one bare body. -/
theorem eq_encodeBody_iff {kind : Kind} :
    body = encodeBody kind payload ↔
      KindSource.sniffed.kindOf body = kind ∧ decodePayload body = .ok payload ∧ IsBare body := by
  constructor
  · rintro rfl
    exact ⟨kindOf_encodeBody kind payload, decodePayload_encodeBody kind payload,
      isBare_encodeBody kind payload⟩
  · rintro ⟨rfl, hpayload, hbare⟩
    exact hbare.eq_encodeBody hpayload

/-- The texts that are decoded are the canonical ones, up to padding and blanks at the
    end. -/
structure IsCanonicallyDecodable : Prop where
  decodePayload_eq_ok_iff : ∀ body payload,
    decodePayload body = .ok payload ↔ Carries (leadText body) body.toList payload
  decodePart_eq_ok_iff : ∀ text envelope,
    decodePart text = .ok envelope ↔ Carries [] text envelope
  /-- Under the lead of a body, the canonical one is what is written for its kind. -/
  encodeBody_eq : ∀ body payload, ∃ symbols, Base64.IsBase64 symbols payload ∧
    encodeBody (KindSource.sniffed.kindOf body) payload =
      String.ofList (leadText body ++ symbols)
  /-- There is one canonical body for a kind and a payload. -/
  unique : ∀ kind payload body, body = encodeBody kind payload ↔
    KindSource.sniffed.kindOf body = kind ∧ decodePayload body = .ok payload ∧ IsBare body

/-- The decoder is exact. -/
theorem isCanonicallyDecodable : IsCanonicallyDecodable where
  decodePayload_eq_ok_iff _ _ := decodePayload_eq_ok_iff
  decodePart_eq_ok_iff _ _ := decodePart_eq_ok_iff
  encodeBody_eq body payload := by
    refine ⟨_, Base64.isBase64_iff.2 rfl, ?_⟩
    rw [← toList_encodeBody, String.ofList_toList]
  unique _ _ _ := eq_encodeBody_iff

end SecureInbox.Wire
