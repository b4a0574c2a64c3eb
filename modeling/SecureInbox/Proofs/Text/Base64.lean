import SecureInbox.Proofs.Except
import SecureInbox.Text.Base64
import SecureInbox.Text.Blank

/-!
# The texts that base64 reads

The symbols of a byte string stand for its *sextets*, numbers below 64. In UTF-8
every symbol is one octet, no symbol is blank, and none is the padding sign, so
decoding goes through the sextets group by group.

What is read is the symbols of a byte string, as they are written, and after
them no more padding than fills up the last group:

* `Base64.decode_eq_ok_iff`: which texts are read, and as which bytes;
* `Base64.decode_encode`: in particular, the bytes that were written come back;
* `Base64.decode_trimEnd_eq_ok_iff`: blanks at the end make no difference;
* `Base64.isSymbol_of_mem_encode`: nothing but symbols is written;
* `Base64.decode_foreign`: a text that begins with anything else is not read.
-/

namespace SecureInbox

namespace Text

/-- A text is known by its octets. -/
theorem octets_inj {s t : List Char} : octets s = octets t ↔ s = t := by
  refine ⟨fun h => ?_, congrArg octets⟩
  have hbytes : (String.ofList s).toByteArray = (String.ofList t).toByteArray := by
    rw [String.toByteArray_ofList, String.toByteArray_ofList]
    exact congrArg List.toByteArray h
  exact String.ofList_inj.1 (String.toByteArray_inj.1 hbytes)

end Text

namespace Base64

/-! ## Symbols -/

/-- The octet of the symbol of a number. -/
def octet (n : Nat) : UInt8 := UInt8.ofNat (symbol n).toNat

/-- The character is one of the alphabet. -/
def IsSymbol (c : Char) : Prop := ∃ n < 64, c = symbol n

section

variable {n : Nat} (hn : n < 64)

include hn

theorem utf8EncodeChar_symbol : String.utf8EncodeChar (symbol n) = [octet n] := by
  revert n
  decide

theorem value?_octet : value? (octet n) = some n := by
  revert n
  decide

theorem octet_ne_pad : octet n ≠ pad := by
  revert n
  decide

end

theorem toNat_octet {n : Nat} (hn : n < 64) :
    (octet n).toNat = if n < 26 then 65 + n else if n < 52 then 71 + n else if n < 62 then n - 4
      else if n = 62 then 43 else 47 := by
  revert n
  decide

/-- The octets with a value are those of the symbols. -/
theorem value?_eq_some_iff {b : UInt8} {n : Nat} : value? b = some n ↔ n < 64 ∧ b = octet n := by
  constructor
  · intro h
    have hn : n < 64 := by
      simp only [value?] at h
      grind
    refine ⟨hn, UInt8.toNat_inj.1 ?_⟩
    rw [toNat_octet hn]
    simp only [value?] at h
    grind
  · rintro ⟨hn, rfl⟩
    exact value?_octet hn

theorem symbolAt_eq_ok_iff {offset n : Nat} {b : UInt8} :
    symbolAt offset b = .ok n ↔ n < 64 ∧ b = octet n := by
  rw [← value?_eq_some_iff, symbolAt]
  cases value? b <;> simp

theorem IsSymbol.isBlank_eq {c : Char} (h : IsSymbol c) : Text.isBlank c = false := by
  obtain ⟨n, hn, rfl⟩ := h
  revert n
  decide

theorem IsSymbol.isAlphanum_or {c : Char} (h : IsSymbol c) :
    c.isAlphanum = true ∨ c = '+' ∨ c = '/' := by
  obtain ⟨n, hn, rfl⟩ := h
  revert n
  decide

/-! ## Sextets -/

/-- The numbers that the symbols of a byte string stand for. -/
def sextets : Bytes → List Nat
  | [] => []
  | [a] => [a.toNat / 4, a.toNat % 4 * 16]
  | [a, b] => [a.toNat / 4, a.toNat % 4 * 16 + b.toNat / 16, b.toNat % 16 * 4]
  | a :: b :: c :: rest =>
    a.toNat / 4 :: (a.toNat % 4 * 16 + b.toNat / 16) :: (b.toNat % 16 * 4 + c.toNat / 64) ::
      c.toNat % 64 :: sextets rest

theorem encode_eq_map (bytes : Bytes) : encode bytes = (sextets bytes).map symbol := by
  fun_induction encode bytes with
  | case1 | case2 | case3 => rfl
  | case4 a b c rest ih => simp only [sextets, List.map_cons, ih]

theorem sextets_lt (bytes : Bytes) : ∀ n ∈ sextets bytes, n < 64 := by
  fun_induction sextets bytes with
  | case1 => exact nofun
  | case2 a =>
    have ha := a.toNat_lt
    simp only [List.forall_mem_cons]
    exact ⟨by omega, by omega, nofun⟩
  | case3 a b =>
    have ha := a.toNat_lt
    have hb := b.toNat_lt
    simp only [List.forall_mem_cons]
    exact ⟨by omega, by omega, by omega, nofun⟩
  | case4 a b c rest ih =>
    have ha := a.toNat_lt
    have hb := b.toNat_lt
    have hc := c.toNat_lt
    simp only [List.forall_mem_cons]
    exact ⟨by omega, by omega, by omega, by omega, ih⟩

/-- Every sextet holds six bits of the bytes, the last one perhaps fewer. -/
theorem length_sextets (bytes : Bytes) : (sextets bytes).length = (8 * bytes.length + 5) / 6 := by
  fun_induction sextets bytes with
  | case1 => rfl
  | case2 | case3 => simp
  | case4 a b c rest ih =>
    simp only [List.length_cons]
    omega

theorem isSymbol_of_mem_encode {bytes : Bytes} {c : Char} (h : c ∈ encode bytes) : IsSymbol c := by
  rw [encode_eq_map] at h
  obtain ⟨n, hn, rfl⟩ := List.mem_map.1 h
  exact ⟨n, sextets_lt bytes n hn, rfl⟩

theorem octets_map_symbol (numbers : List Nat) (h : ∀ n ∈ numbers, n < 64) :
    Text.octets (numbers.map symbol) = numbers.map octet := by
  induction numbers with
  | nil => rfl
  | cons n numbers ih =>
    obtain ⟨hn, hnumbers⟩ := List.forall_mem_cons.1 h
    rw [List.map_cons, Text.octets_cons, utf8EncodeChar_symbol hn, ih hnumbers]
    rfl

theorem octets_encode (bytes : Bytes) : Text.octets (encode bytes) = (sextets bytes).map octet := by
  rw [encode_eq_map, octets_map_symbol _ (sextets_lt bytes)]

/-- The sextets of three bytes give the bytes back. -/
theorem bytes_of_sextets (a b c : UInt8) :
    UInt8.ofNat (a.toNat / 4 * 4 + (a.toNat % 4 * 16 + b.toNat / 16) / 16) = a ∧
      UInt8.ofNat ((a.toNat % 4 * 16 + b.toNat / 16) % 16 * 16 +
        (b.toNat % 16 * 4 + c.toNat / 64) / 4) = b ∧
      UInt8.ofNat ((b.toNat % 16 * 4 + c.toNat / 64) % 4 * 64 + c.toNat % 64) = c := by
  have ha := a.toNat_lt
  have hb := b.toNat_lt
  have hc := c.toNat_lt
  simp only [← UInt8.toNat_inj, UInt8.toNat_ofNat']
  omega

/-- Four sextets come back from the three bytes they make. -/
theorem sextets_of_bytes {w x y z : Nat} (hw : w < 64) (hx : x < 64) (hy : y < 64) (hz : z < 64)
    (rest : Bytes) :
    sextets (UInt8.ofNat (w * 4 + x / 16) :: UInt8.ofNat (x % 16 * 16 + y / 4) ::
      UInt8.ofNat (y % 4 * 64 + z) :: rest) = w :: x :: y :: z :: sextets rest := by
  simp only [sextets, UInt8.toNat_ofNat', List.cons.injEq, and_true]
  omega

/-! ## The last group -/

/-- How many padding signs fill up the last group of so many bytes. -/
def padding (length : Nat) : Nat := (3 - length % 3) % 3

/-- With all its padding a text is made of whole groups. -/
theorem length_sextets_add_padding (bytes : Bytes) :
    (sextets bytes).length + padding bytes.length = 4 * ((bytes.length + 2) / 3) := by
  rw [length_sextets, padding]
  have hmod : bytes.length % 3 = 0 ∨ bytes.length % 3 = 1 ∨ bytes.length % 3 = 2 := by omega
  rcases hmod with hmod | hmod | hmod <;> rw [hmod] <;> omega

/-- In the last group padding may stand after two symbols. -/
theorem lastSymbols_append {k pads : Nat} (offset : Nat) (numbers : List Nat)
    (h : ∀ n ∈ numbers, n < 64) (hpads : pads ≠ 0 → 2 ≤ k + numbers.length) :
    lastSymbols offset k (numbers.map octet ++ List.replicate pads pad) =
      .ok (numbers.map fun n => (octet n, n)) := by
  induction numbers generalizing k with
  | nil =>
    cases pads with
    | zero => rfl
    | succ pads =>
      have hk : ¬(k < 2 ∨ ∃ c ∈ List.replicate pads pad, c ≠ pad) := by
        have hk := hpads (Nat.succ_ne_zero pads)
        rw [List.length_nil] at hk
        rintro (hlt | ⟨c, hc, hne⟩)
        · omega
        · exact hne (List.eq_of_mem_replicate hc)
      rw [List.map_nil, List.nil_append, List.replicate_succ, lastSymbols, if_pos rfl, if_neg hk]
      rfl
  | cons n numbers ih =>
    obtain ⟨hn, hnumbers⟩ := List.forall_mem_cons.1 h
    rw [List.length_cons] at hpads
    rw [List.map_cons, List.cons_append, lastSymbols, if_neg (octet_ne_pad hn),
      symbolAt_eq_ok_iff.2 ⟨hn, rfl⟩, ih hnumbers (by omega)]
    rfl

/-- Nothing but symbols with padding after them is read as the last group. -/
theorem exists_of_lastSymbols {offset k : Nat} {octets : Bytes} {symbols : List (UInt8 × Nat)}
    (h : lastSymbols offset k octets = .ok symbols) :
    ∃ (numbers : List Nat) (pads : Nat), (∀ n ∈ numbers, n < 64) ∧
      (pads ≠ 0 → 2 ≤ k + numbers.length) ∧
        octets = numbers.map octet ++ List.replicate pads pad ∧
          symbols = numbers.map fun n => (octet n, n) := by
  induction octets generalizing k symbols with
  | nil =>
    cases h
    exact ⟨[], 0, nofun, nofun, rfl, rfl⟩
  | cons b rest ih =>
    rw [lastSymbols] at h
    split at h
    · rename_i hb
      split at h
      · exact nomatch h
      · rename_i hpads
        cases h
        have hrest : rest = List.replicate rest.length pad :=
          List.eq_replicate_of_mem fun c hc =>
            Decidable.not_not.1 fun hne => hpads (.inr ⟨c, hc, hne⟩)
        refine ⟨[], rest.length + 1, nofun, fun _ => Nat.not_lt.1 fun hk => hpads (.inl hk), ?_, rfl⟩
        rw [List.map_nil, List.nil_append, List.replicate_succ, ← hrest, hb]
    · obtain ⟨n, hsymbol, h⟩ := bind_eq_ok_iff.1 h
      obtain ⟨symbols', hrest, h⟩ := bind_eq_ok_iff.1 h
      cases h
      obtain ⟨numbers, pads, hlt, hpads, rfl, rfl⟩ := ih hrest
      obtain ⟨hn, rfl⟩ := symbolAt_eq_ok_iff.1 hsymbol
      refine ⟨n :: numbers, pads, List.forall_mem_cons.2 ⟨hn, hlt⟩, ?_, rfl, rfl⟩
      rw [List.length_cons]
      omega

theorem lastBytes_sextets {bytes : Bytes} (offset : Nat) (h : bytes.length ≤ 3) :
    lastBytes offset ((sextets bytes).map fun n => (octet n, n)) = .ok bytes := by
  match bytes, h with
  | [], _ => rfl
  | [a], _ =>
    have ha : UInt8.ofNat (a.toNat / 4 * 4 + a.toNat % 4 * 16 / 16) = a :=
      (bytes_of_sextets a 0 0).1
    simp only [sextets, List.map_cons, List.map_nil, lastBytes, if_pos (Nat.mul_mod_left _ 16), ha]
  | [a, b], _ =>
    have ha := (bytes_of_sextets a b 0).1
    have hb : UInt8.ofNat ((a.toNat % 4 * 16 + b.toNat / 16) % 16 * 16 + b.toNat % 16 * 4 / 4) = b :=
      (bytes_of_sextets a b 0).2.1
    simp only [sextets, List.map_cons, List.map_nil, lastBytes, if_pos (Nat.mul_mod_left _ 4), ha,
      hb]
  | [a, b, c], _ =>
    obtain ⟨ha, hb, hc⟩ := bytes_of_sextets a b c
    simp only [sextets, List.map_cons, List.map_nil, lastBytes, ha, hb, hc]

theorem sextets_of_lastBytes {offset : Nat} {numbers : List Nat} {bytes : Bytes}
    (h : ∀ n ∈ numbers, n < 64) (hlength : numbers.length ≤ 4)
    (hbytes : lastBytes offset (numbers.map fun n => (octet n, n)) = .ok bytes) :
    numbers = sextets bytes := by
  match numbers, hlength with
  | [], _ => cases hbytes; rfl
  | [_], _ => exact nomatch hbytes
  | [w, x], _ =>
    simp only [List.forall_mem_cons] at h
    obtain ⟨hw, hx, -⟩ := h
    simp only [List.map_cons, List.map_nil, lastBytes] at hbytes
    split at hbytes
    · cases hbytes
      simp only [sextets, UInt8.toNat_ofNat', List.cons.injEq, and_true]
      omega
    · exact nomatch hbytes
  | [w, x, y], _ =>
    simp only [List.forall_mem_cons] at h
    obtain ⟨hw, hx, hy, -⟩ := h
    simp only [List.map_cons, List.map_nil, lastBytes] at hbytes
    split at hbytes
    · cases hbytes
      simp only [sextets, UInt8.toNat_ofNat', List.cons.injEq, and_true]
      omega
    · exact nomatch hbytes
  | [w, x, y, z], _ =>
    simp only [List.forall_mem_cons] at h
    obtain ⟨hw, hx, hy, hz, -⟩ := h
    cases hbytes
    exact (sextets_of_bytes hw hx hy hz []).symm

/-! ## Groups -/

theorem decodeGroups_of_length_le {octets : Bytes} (offset : Nat) (h : octets.length ≤ 4) :
    decodeGroups offset octets = lastSymbols offset 0 octets >>= lastBytes offset := by
  unfold decodeGroups
  split
  · simp only [List.length_cons] at h
    omega
  · rfl

/-- Up to four octets are the last group. -/
theorem decodeGroups_eq_ok_iff_of_length_le {offset : Nat} {octets bytes : Bytes}
    (h : octets.length ≤ 4) :
    decodeGroups offset octets = .ok bytes ↔
      ∃ pads ≤ padding bytes.length,
        octets = (sextets bytes).map octet ++ List.replicate pads pad := by
  have hgroups := length_sextets_add_padding bytes
  have hsextets := length_sextets bytes
  rw [decodeGroups_of_length_le offset h, bind_eq_ok_iff]
  constructor
  · rintro ⟨symbols, hsymbols, hbytes⟩
    obtain ⟨numbers, pads, hlt, hpads, rfl, rfl⟩ := exists_of_lastSymbols hsymbols
    rw [List.length_append, List.length_map, List.length_replicate] at h
    obtain rfl := sextets_of_lastBytes hlt (by omega) hbytes
    exact ⟨pads, by omega, rfl⟩
  · rintro ⟨pads, hle, rfl⟩
    rw [List.length_append, List.length_map, List.length_replicate] at h
    have hpadding : padding bytes.length ≤ 2 := Nat.le_of_lt_succ (Nat.mod_lt _ (by decide))
    exact ⟨_, lastSymbols_append offset _ (sextets_lt bytes) (by omega),
      lastBytes_sextets offset (by omega)⟩

/-- Four octets with more behind them are three bytes. -/
theorem decodeGroups_group_eq_ok_iff {offset : Nat} {a b c d e : UInt8} {rest bytes : Bytes} :
    decodeGroups offset (a :: b :: c :: d :: e :: rest) = .ok bytes ↔
      ∃ x y z tail, bytes = x :: y :: z :: tail ∧
        [a, b, c, d] = (sextets [x, y, z]).map octet ∧
          decodeGroups (offset + 4) (e :: rest) = .ok tail := by
  rw [decodeGroups]
  simp only [bind_eq_ok_iff, symbolAt_eq_ok_iff]
  constructor
  · rintro ⟨w, ⟨hw, rfl⟩, x, ⟨hx, rfl⟩, y, ⟨hy, rfl⟩, z, ⟨hz, rfl⟩, tail, htail, hbytes⟩
    cases hbytes
    exact ⟨_, _, _, tail, rfl, by rw [sextets_of_bytes hw hx hy hz]; rfl, htail⟩
  · rintro ⟨x, y, z, tail, rfl, hgroup, htail⟩
    have hlt := sextets_lt [x, y, z]
    obtain ⟨hx, hy, hz⟩ := bytes_of_sextets x y z
    simp only [sextets, List.map_cons, List.map_nil, List.cons.injEq, and_true] at hgroup
    simp only [sextets, List.forall_mem_cons] at hlt
    obtain ⟨rfl, rfl, rfl, rfl⟩ := hgroup
    obtain ⟨hlt₀, hlt₁, hlt₂, hlt₃, -⟩ := hlt
    refine ⟨_, ⟨hlt₀, rfl⟩, _, ⟨hlt₁, rfl⟩, _, ⟨hlt₂, rfl⟩, _, ⟨hlt₃, rfl⟩, tail, htail, ?_⟩
    rw [hx, hy, hz]
    rfl

theorem padding_add_three (length : Nat) : padding (length + 3) = padding length := by
  rw [padding, padding, Nat.add_mod_right]

/-- What is read is the symbols of a byte string, with padding after them. -/
theorem decodeGroups_eq_ok_iff (offset : Nat) {octets bytes : Bytes} :
    decodeGroups offset octets = .ok bytes ↔
      ∃ pads ≤ padding bytes.length,
        octets = (sextets bytes).map octet ++ List.replicate pads pad := by
  induction offset, octets using decodeGroups.induct generalizing bytes with
  | case1 offset a b c d e rest ih =>
    rw [decodeGroups_group_eq_ok_iff]
    constructor
    · rintro ⟨x, y, z, tail, rfl, hgroup, htail⟩
      obtain ⟨pads, hle, htail⟩ := ih.1 htail
      refine ⟨pads, (padding_add_three tail.length).symm ▸ hle, ?_⟩
      calc a :: b :: c :: d :: e :: rest
          = [a, b, c, d] ++ (e :: rest) := rfl
        _ = (sextets [x, y, z]).map octet ++
              ((sextets tail).map octet ++ List.replicate pads pad) := by rw [hgroup, htail]
        _ = (sextets (x :: y :: z :: tail)).map octet ++ List.replicate pads pad := rfl
    · rintro ⟨pads, hle, hoctets⟩
      -- more than one group of octets makes more than three bytes
      have hlength := congrArg List.length hoctets
      have hgroups := length_sextets_add_padding bytes
      simp only [List.length_cons, List.length_append, List.length_map, List.length_replicate]
        at hlength
      have hlong : 3 < bytes.length := by omega
      match bytes, hlong with
      | x :: y :: z :: tail, _ =>
        simp only [sextets, List.map_cons, List.cons_append, List.cons.injEq] at hoctets
        obtain ⟨rfl, rfl, rfl, rfl, htail⟩ := hoctets
        exact ⟨x, y, z, tail, rfl, rfl, ih.2 ⟨pads, padding_add_three tail.length ▸ hle, htail⟩⟩
  | case2 offset last hlast =>
    refine decodeGroups_eq_ok_iff_of_length_le (Nat.not_lt.1 fun hlt => ?_)
    match last, hlt with
    | a :: b :: c :: d :: e :: rest, _ => exact hlast a b c d e rest rfl

/-! ## Texts -/

/-- Symbols and padding are no strays. -/
theorem strayEnd?_eq_none {octets : Bytes} (h : ∀ b ∈ octets, b = pad ∨ ∃ n, value? b = some n) :
    strayEnd? octets = none := by
  rw [strayEnd?]
  split
  · refine Option.filter_eq_none_iff.2 fun b hb => ?_
    rcases h b (List.mem_of_getLast? hb) with rfl | ⟨n, hn⟩
    · simp
    · simp [hn]
  · rfl

theorem decode_eq_ok_iff_octets {text : List Char} {bytes : Bytes} :
    decode text = .ok bytes ↔
      ∃ pads ≤ padding bytes.length,
        Text.octets text = (sextets bytes).map octet ++ List.replicate pads pad := by
  rw [← decodeGroups_eq_ok_iff 0]
  cases hstray : strayEnd? (Text.octets text) with
  | none => simp only [decode, hstray]
  | some b =>
    simp only [decode, hstray]
    refine iff_of_false nofun fun h => ?_
    obtain ⟨pads, -, hoctets⟩ := (decodeGroups_eq_ok_iff 0).1 h
    refine nomatch hstray.symm.trans (strayEnd?_eq_none fun b hb => ?_)
    rw [hoctets, List.mem_append, List.mem_map] at hb
    rcases hb with ⟨n, hn, rfl⟩ | hb
    · exact .inr ⟨n, value?_octet (sextets_lt bytes n hn)⟩
    · exact .inl (List.eq_of_mem_replicate hb)

/-- The texts that are read are the symbols of a byte string, with padding after them
    up to a whole group. -/
theorem decode_eq_ok_iff {text : List Char} {bytes : Bytes} :
    decode text = .ok bytes ↔
      ∃ pads ≤ padding bytes.length, text = encode bytes ++ List.replicate pads '=' := by
  have hpads : ∀ pads, Text.octets (List.replicate pads '=') = List.replicate pads pad := by
    intro pads
    rw [Text.octets, List.flatMap_replicate, show String.utf8EncodeChar '=' = [pad] by decide,
      List.flatten_replicate_singleton]
  simp only [decode_eq_ok_iff_octets, ← hpads, ← octets_encode, ← Text.octets_append,
    Text.octets_inj]

/-- Reading gives back what was written. -/
theorem decode_encode (bytes : Bytes) : decode (encode bytes) = .ok bytes :=
  decode_eq_ok_iff.2 ⟨0, Nat.zero_le _, (List.append_nil _).symm⟩

/-- A text that begins with a foreign character is not read. -/
theorem decode_foreign {c : Char} (hsymbol : ¬IsSymbol c) (hpad : c ≠ '=') (text : List Char) :
    ∃ e, decode (c :: text) = .error e := by
  cases h : decode (c :: text) with
  | error e => exact ⟨e, rfl⟩
  | ok bytes =>
    obtain ⟨pads, -, htext⟩ := decode_eq_ok_iff.1 h
    have hc : c ∈ encode bytes ++ List.replicate pads '=' := htext ▸ List.mem_cons_self
    rcases List.mem_append.1 hc with hc | hc
    · exact absurd (isSymbol_of_mem_encode hc) hsymbol
    · exact absurd (List.eq_of_mem_replicate hc) hpad

/-! ## Blanks at the end -/

/-- Symbols and padding are not blank. -/
theorem isBlank_of_mem_encode_append {bytes : Bytes} {pads : Nat} {c : Char}
    (h : c ∈ encode bytes ++ List.replicate pads '=') : Text.isBlank c = false := by
  rcases List.mem_append.1 h with hc | hc
  · exact (isSymbol_of_mem_encode hc).isBlank_eq
  · rw [List.eq_of_mem_replicate hc]
    decide

/-- There is nothing to trim off what was written. -/
theorem trimEnd_encode (bytes : Bytes) : Text.trimEnd (encode bytes) = encode bytes :=
  Text.trimEnd_eq_self fun _ hc => (isSymbol_of_mem_encode hc).isBlank_eq

/-- The texts that are read once the blanks at their end are trimmed off. -/
theorem decode_trimEnd_eq_ok_iff {text : List Char} {bytes : Bytes} :
    decode (Text.trimEnd text) = .ok bytes ↔
      ∃ pads ≤ padding bytes.length, ∃ blanks, (∀ c ∈ blanks, Text.isBlank c = true) ∧
        text = encode bytes ++ List.replicate pads '=' ++ blanks := by
  rw [decode_eq_ok_iff]
  constructor
  · rintro ⟨pads, hle, htrim⟩
    obtain ⟨blanks, htext, hblanks⟩ := Text.exists_trimEnd_append text
    exact ⟨pads, hle, blanks, hblanks, htrim ▸ htext⟩
  · rintro ⟨pads, hle, blanks, hblanks, rfl⟩
    refine ⟨pads, hle, ?_⟩
    rw [Text.trimEnd_append_blanks hblanks]
    exact Text.trimEnd_eq_self fun c hc => isBlank_of_mem_encode_append hc

end Base64

end SecureInbox
