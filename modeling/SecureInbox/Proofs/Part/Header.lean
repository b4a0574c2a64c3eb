import SecureInbox.Proofs.Part.Envelope
import SecureInbox.Proofs.Wire.Canonical

/-!
# Which texts are parts

A body is a part if the marker follows its lead and the rest is base64 of an envelope of
three bytes or more, the second of which has the number of parts in its low half and a
smaller index in its high half. Any other body is refused for the first thing that it
lacks of these, in this order (`Part.Reads`).

Index and number of parts share a byte, so only those that fit in half a byte each are
read back as they were written.

* `Part.parse_eq_iff`: what every body is read as;
* `Part.parse_encode_iff`: which parts are read back;
* `Part.isExactlyCoded`: both, and each fault with the bodies that have it.
-/

namespace SecureInbox

/-! ## Marked bodies -/

namespace Wire

/-- The marker of parts follows the lead of the body, and the text follows the marker. -/
def IsMarked (body lead : String) (text : List Char) : Prop :=
  (∃ kind, matchLead? body = some (kind, lead)) ∧ body.toList = lead.toList ++ '#' :: text

theorem isMarked_iff {body lead : String} {text : List Char} :
    IsMarked body lead text ↔ ∃ kind, splitPart? body = some (kind, lead, text) := by
  constructor
  · rintro ⟨⟨kind, hlead⟩, hbody⟩
    rw [toList_eq, leadText, hlead, Option.map_some, Option.getD_some,
      List.append_cancel_left_eq] at hbody
    exact ⟨kind, by rw [splitPart?, hlead, hbody]; exact if_pos rfl⟩
  · rintro ⟨kind, hpart⟩
    have hlead := matchLead?_of_splitPart? hpart
    refine ⟨⟨kind, hlead⟩, ?_⟩
    rw [toList_eq, leadText, hlead, afterLead_of_splitPart? hpart]
    rfl

theorem splitPart?_eq_none_iff {body : String} :
    splitPart? body = none ↔ ¬∃ lead text, IsMarked body lead text := by
  simp only [isMarked_iff, Option.eq_none_iff_forall_ne_some, Prod.forall, not_exists]
  exact ⟨fun h lead text kind => h kind lead text, fun h kind lead text => h lead text kind⟩

end Wire

namespace Part

variable {body lead : String} {text : List Char} {p : Part}

/-! ## Reading -/

/-- What is read off a body: a part, or else the first thing that is wrong with it. -/
inductive Reads (body : String) : Except PartError Part → Prop
  | unmarked : (¬∃ lead text, Wire.IsMarked body lead text) → Reads body (.error .notAPart)
  | undecodable {lead : String} {text : List Char} {cause : Base64.Error} :
      Wire.IsMarked body lead text → Wire.decodePart text = .error cause →
      Reads body (.error (.undecodable cause))
  | truncated {lead : String} {text : List Char} {envelope : Bytes} :
      Wire.IsMarked body lead text → Wire.decodePart text = .ok envelope → envelope.length < 3 →
      Reads body (.error (.truncated envelope.length))
  | invalidHeader {lead : String} {text : List Char} {version header identifier : UInt8}
      {chunk : Bytes} : Wire.IsMarked body lead text →
      Wire.decodePart text = .ok (version :: header :: identifier :: chunk) →
      (header.toNat % 16 = 0 ∨ header.toNat % 16 ≤ header.toNat / 16) →
      Reads body (.error (.invalidHeader (header / 16) (header % 16)))
  | part {lead : String} {text : List Char} {version header identifier : UInt8} {chunk : Bytes} :
      Wire.IsMarked body lead text →
      Wire.decodePart text = .ok (version :: header :: identifier :: chunk) →
      header.toNat % 16 ≠ 0 → header.toNat / 16 < header.toNat % 16 →
      Reads body (.ok ⟨lead, version, header / 16, header % 16, identifier, chunk⟩)

theorem parse_of_isMarked (h : Wire.IsMarked body lead text) :
    parse body = match Wire.decodePart text with
      | .error cause => .error (.undecodable cause)
      | .ok envelope => ofEnvelope lead envelope := by
  obtain ⟨kind, hpart⟩ := Wire.isMarked_iff.1 h
  cases hdecode : Wire.decodePart text with
  | error cause => simp only [parse, hpart, hdecode]
  | ok envelope => simp only [parse, hpart, hdecode]

/-- The header does not tell which of how many parts this is. -/
theorem header_invalid_iff (header : UInt8) :
    (header % 16 = 0 ∨ header % 16 ≤ header / 16) ↔
      (header.toNat % 16 = 0 ∨ header.toNat % 16 ≤ header.toNat / 16) := by
  rw [← UInt8.toNat_inj, UInt8.le_iff_toNat_le, UInt8.toNat_mod, UInt8.toNat_div]
  rfl

theorem ofEnvelope_of_length_lt {envelope : Bytes} (lead : String) (h : envelope.length < 3) :
    ofEnvelope lead envelope = .error (.truncated envelope.length) := by
  match envelope, h with
  | [], _ | [_], _ | [_, _], _ => rfl

theorem ofEnvelope_of_invalid {version header identifier : UInt8} {chunk : Bytes} (lead : String)
    (h : header.toNat % 16 = 0 ∨ header.toNat % 16 ≤ header.toNat / 16) :
    ofEnvelope lead (version :: header :: identifier :: chunk) =
      .error (.invalidHeader (header / 16) (header % 16)) :=
  if_pos ((header_invalid_iff header).2 h)

theorem ofEnvelope_of_valid {version header identifier : UInt8} {chunk : Bytes} (lead : String)
    (h : ¬(header.toNat % 16 = 0 ∨ header.toNat % 16 ≤ header.toNat / 16)) :
    ofEnvelope lead (version :: header :: identifier :: chunk) =
      .ok ⟨lead, version, header / 16, header % 16, identifier, chunk⟩ :=
  if_neg fun hinvalid => h ((header_invalid_iff header).1 hinvalid)

theorem reads_parse (body : String) : Reads body (parse body) := by
  by_cases hmarked : ∃ lead text, Wire.IsMarked body lead text
  · obtain ⟨lead, text, hmarked⟩ := hmarked
    rw [parse_of_isMarked hmarked]
    cases hdecode : Wire.decodePart text with
    | error cause => exact .undecodable hmarked hdecode
    | ok envelope =>
      dsimp only
      by_cases hlength : envelope.length < 3
      · rw [ofEnvelope_of_length_lt lead hlength]
        exact .truncated hmarked hdecode hlength
      · match envelope, Nat.not_lt.1 hlength with
        | version :: header :: identifier :: chunk, _ =>
          by_cases hinvalid : header.toNat % 16 = 0 ∨ header.toNat % 16 ≤ header.toNat / 16
          · rw [ofEnvelope_of_invalid lead hinvalid]
            exact .invalidHeader hmarked hdecode hinvalid
          · rw [ofEnvelope_of_valid lead hinvalid]
            rw [not_or, Nat.not_le] at hinvalid
            exact .part hmarked hdecode hinvalid.1 hinvalid.2
  · rw [parse, Wire.splitPart?_eq_none_iff.2 hmarked]
    exact .unmarked hmarked

/-- Every body is read in one way. -/
theorem Reads.eq_parse {result : Except PartError Part} (h : Reads body result) :
    parse body = result := by
  cases h with
  | unmarked hmarked => rw [parse, Wire.splitPart?_eq_none_iff.2 hmarked]
  | undecodable hmarked hdecode => rw [parse_of_isMarked hmarked, hdecode]
  | truncated hmarked hdecode hlength =>
    rw [parse_of_isMarked hmarked, hdecode]
    exact ofEnvelope_of_length_lt _ hlength
  | invalidHeader hmarked hdecode hinvalid =>
    rw [parse_of_isMarked hmarked, hdecode]
    exact ofEnvelope_of_invalid _ hinvalid
  | part hmarked hdecode hzero hlt =>
    rw [parse_of_isMarked hmarked, hdecode]
    exact ofEnvelope_of_valid _ (not_or.2 ⟨hzero, Nat.not_le.2 hlt⟩)

theorem parse_eq_iff {result : Except PartError Part} : parse body = result ↔ Reads body result :=
  ⟨fun h => h ▸ reads_parse body, Reads.eq_parse⟩

/-! ## Reading back -/

/-- A part is well-formed if it has one of the leads, there are between one and fifteen
    parts, and its index is below their number. -/
theorem isWellFormed_iff :
    p.IsWellFormed ↔ (p.lead = "?TSKP:" ∨ p.lead = "?TSK" ∨ p.lead = "?TSM") ∧
      1 ≤ p.count.toNat ∧ p.count.toNat ≤ 15 ∧ p.index < p.count := by
  constructor
  · rintro ⟨⟨kind, hlead⟩, hindex, hcount⟩
    refine ⟨?_, ?_, hcount, hindex⟩
    · obtain ⟨-, h⟩ | ⟨-, h⟩ | ⟨-, h⟩ := Wire.eq_of_mem_leads hlead
      · exact .inl h
      · exact .inr (.inl h)
      · exact .inr (.inr h)
    · rw [UInt8.lt_iff_toNat_lt] at hindex
      omega
  · rintro ⟨hlead, -, hcount, hindex⟩
    refine ⟨?_, hindex, hcount⟩
    obtain h | h | h := hlead
    · exact ⟨.preKeyBundle, by simp [Wire.leads, Wire.bundleLead, h]⟩
    · exact ⟨.keyExchange, by simp [Wire.leads, Wire.exchangeLead, h]⟩
    · exact ⟨.secureCiphertext, by simp [Wire.leads, Wire.cipherLead, h]⟩

/-- The well-formed parts are those that are read back. -/
theorem parse_encode_iff : parse p.encode = .ok p ↔ p.IsWellFormed :=
  ⟨isWellFormed_of_parse, parse_encode⟩

/-- Parts are read back if they are well-formed, nothing else is read, and any other body
    is refused for its first fault. -/
structure IsExactlyCoded : Prop where
  parse_encode_iff : ∀ p : Part, parse p.encode = .ok p ↔
    (p.lead = "?TSKP:" ∨ p.lead = "?TSK" ∨ p.lead = "?TSM") ∧
      1 ≤ p.count.toNat ∧ p.count.toNat ≤ 15 ∧ p.index < p.count
  /-- What was read is well-formed, so it is read again once it is written. -/
  stable : ∀ body p, parse body = .ok p →
    ((p.lead = "?TSKP:" ∨ p.lead = "?TSK" ∨ p.lead = "?TSM") ∧
      1 ≤ p.count.toNat ∧ p.count.toNat ≤ 15 ∧ p.index < p.count) ∧ parse p.encode = .ok p
  /-- What is read stands in the envelope. -/
  parse_eq_ok_iff : ∀ body p, parse body = .ok p ↔
    ∃ text header, Wire.IsMarked body p.lead text ∧
      Wire.decodePart text = .ok (p.version :: header :: p.identifier :: p.chunk) ∧
        p.index.toNat = header.toNat / 16 ∧ p.count.toNat = header.toNat % 16 ∧
          p.count.toNat ≠ 0 ∧ p.index.toNat < p.count.toNat
  notAPart_iff : ∀ body, parse body = .error .notAPart ↔ ¬∃ lead text, Wire.IsMarked body lead text
  undecodable_iff : ∀ body cause, parse body = .error (.undecodable cause) ↔
    ∃ lead text, Wire.IsMarked body lead text ∧ Wire.decodePart text = .error cause
  truncated_iff : ∀ body n, parse body = .error (.truncated n) ↔
    ∃ lead text envelope, Wire.IsMarked body lead text ∧ Wire.decodePart text = .ok envelope ∧
      envelope.length = n ∧ n < 3
  invalidHeader_iff : ∀ body index count, parse body = .error (.invalidHeader index count) ↔
    ∃ lead text version header identifier chunk, Wire.IsMarked body lead text ∧
      Wire.decodePart text = .ok (version :: header :: identifier :: chunk) ∧
        index.toNat = header.toNat / 16 ∧ count.toNat = header.toNat % 16 ∧
          (count.toNat = 0 ∨ count.toNat ≤ index.toNat)
  /-- There are no other faults. -/
  faults : ∀ body error, parse body = .error error → error = .notAPart ∨
    (∃ cause, error = .undecodable cause) ∨ (∃ n, error = .truncated n) ∨
      ∃ index count, error = .invalidHeader index count

/-- The halves of a header byte are told by their numbers. -/
theorem halves_eq_iff {index count header : UInt8} :
    index.toNat = header.toNat / 16 ∧ count.toNat = header.toNat % 16 ↔
      index = header / 16 ∧ count = header % 16 := by
  rw [← UInt8.toNat_inj, ← UInt8.toNat_inj, UInt8.toNat_div, UInt8.toNat_mod]
  rfl

/-- Parts have an exact code. -/
theorem isExactlyCoded : IsExactlyCoded where
  parse_encode_iff p := parse_encode_iff.trans isWellFormed_iff
  stable body p h :=
    have hp := isWellFormed_of_parse h
    ⟨isWellFormed_iff.1 hp, parse_encode hp⟩
  parse_eq_ok_iff := by
    intro body p
    rw [parse_eq_iff]
    constructor
    · rintro (_ | _ | _ | _ | ⟨hmarked, hdecode, hzero, hlt⟩)
      obtain ⟨hindex, hcount⟩ := halves_eq_iff.2 ⟨rfl, rfl⟩
      exact ⟨_, _, hmarked, hdecode, hindex, hcount, hcount ▸ hzero, hindex ▸ hcount ▸ hlt⟩
    · rintro ⟨text, header, hmarked, hdecode, hindex, hcount, hzero, hlt⟩
      rw [hcount] at hzero hlt
      rw [hindex] at hlt
      obtain ⟨lead, version, index, count, identifier, chunk⟩ := p
      obtain ⟨rfl, rfl⟩ := halves_eq_iff.1 ⟨hindex, hcount⟩
      exact .part hmarked hdecode hzero hlt
  notAPart_iff := by
    intro body
    rw [parse_eq_iff]
    exact ⟨fun | .unmarked h => h, .unmarked⟩
  undecodable_iff := by
    intro body cause
    rw [parse_eq_iff]
    exact ⟨fun | .undecodable hmarked hdecode => ⟨_, _, hmarked, hdecode⟩,
      fun ⟨_, _, hmarked, hdecode⟩ => .undecodable hmarked hdecode⟩
  truncated_iff := by
    intro body n
    rw [parse_eq_iff]
    constructor
    · rintro (_ | _ | ⟨hmarked, hdecode, hlength⟩)
      exact ⟨_, _, _, hmarked, hdecode, rfl, hlength⟩
    · rintro ⟨lead, text, envelope, hmarked, hdecode, rfl, hlength⟩
      exact .truncated hmarked hdecode hlength
  invalidHeader_iff := by
    intro body index count
    rw [parse_eq_iff]
    constructor
    · rintro (_ | _ | _ | ⟨hmarked, hdecode, hinvalid⟩)
      obtain ⟨hindex, hcount⟩ := halves_eq_iff.2 ⟨rfl, rfl⟩
      exact ⟨_, _, _, _, _, _, hmarked, hdecode, hindex, hcount, hindex ▸ hcount ▸ hinvalid⟩
    · rintro ⟨lead, text, version, header, identifier, chunk, hmarked, hdecode, hindex, hcount,
        hinvalid⟩
      rw [hcount, hindex] at hinvalid
      obtain ⟨rfl, rfl⟩ := halves_eq_iff.1 ⟨hindex, hcount⟩
      exact .invalidHeader hmarked hdecode hinvalid
  faults := by
    intro body error h
    rw [parse_eq_iff] at h
    cases h with
    | unmarked => exact .inl rfl
    | undecodable => exact .inr (.inl ⟨_, rfl⟩)
    | truncated => exact .inr (.inr (.inl ⟨_, rfl⟩))
    | invalidHeader => exact .inr (.inr (.inr ⟨_, _, rfl⟩))

end Part

end SecureInbox
