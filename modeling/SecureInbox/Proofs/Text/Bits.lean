import Mathlib.Algebra.Group.Nat.Defs
import Mathlib.Data.List.Forall2
import SecureInbox.Proofs.Text.Base64

/-!
# Base64 by its bits

What base64 is, told without groups: the bits of the bytes, most significant first, are
cut into pieces of six, the last one is filled up with zeros, and each piece is the place
of a symbol in the alphabet (`IsBase64`). Every byte string has one such text, the one
that is written (`isBase64_iff`).
-/

namespace SecureInbox.Base64

/-- The alphabet; a symbol stands for its place in it. -/
def alphabet : List Char :=
  "ABCDEFGHIJKLMNOPQRSTUVWXYZabcdefghijklmnopqrstuvwxyz0123456789+/".toList

/-- The last so many bits of a number, the most significant first. -/
def bits : Nat → Nat → List Nat
  | 0, _ => []
  | width + 1, n => n / 2 ^ width % 2 :: bits width n

/-- The text is the base64 of the bytes, without padding: its symbols stand for the bits
    of the bytes, six by six, and for fewer than six zeros at the end. -/
def IsBase64 (text : List Char) (bytes : Bytes) : Prop :=
  ∃ numbers spare, List.Forall₂ (fun c n => alphabet[n]? = some c) text numbers ∧ spare < 6 ∧
    numbers.flatMap (bits 6) = bytes.flatMap (fun b => bits 8 b.toNat) ++ List.replicate spare 0

theorem alphabet_symbol {n : Nat} (hn : n < 64) : alphabet[n]? = some (symbol n) := by
  revert n
  decide

theorem lt_of_alphabet {c : Char} {n : Nat} (h : alphabet[n]? = some c) : n < 64 :=
  (List.getElem?_eq_some_iff.1 h).1

/-- The symbols of a text are those of the numbers they stand for. -/
theorem forall₂_alphabet_iff {text : List Char} {numbers : List Nat} :
    List.Forall₂ (fun c n => alphabet[n]? = some c) text numbers ↔
      (∀ n ∈ numbers, n < 64) ∧ text = numbers.map symbol := by
  induction numbers generalizing text with
  | nil => simp
  | cons n numbers ih =>
    rw [List.forall₂_cons_right_iff, List.forall_mem_cons, List.map_cons]
    constructor
    · rintro ⟨c, rest, hc, hrest, rfl⟩
      obtain ⟨hlt, rfl⟩ := ih.1 hrest
      have hn := lt_of_alphabet hc
      exact ⟨⟨hn, hlt⟩, by rw [Option.some.inj (hc.symm.trans (alphabet_symbol hn))]⟩
    · rintro ⟨⟨hn, hlt⟩, rfl⟩
      exact ⟨_, _, alphabet_symbol hn, ih.2 ⟨hlt, rfl⟩, rfl⟩

/-! ## The bits of sextets -/

@[simp]
theorem length_bits (width n : Nat) : (bits width n).length = width := by
  induction width with
  | zero => rfl
  | succ width ih => rw [bits, List.length_cons, ih]

theorem bits_injective {n n' : Nat} (hn : n < 64) (hn' : n' < 64) (h : bits 6 n = bits 6 n') :
    n = n' := by
  simp only [bits, List.cons.injEq, and_true] at h
  omega

theorem length_flatMap_bits (numbers : List Nat) :
    (numbers.flatMap (bits 6)).length = 6 * numbers.length := by
  induction numbers with
  | nil => rfl
  | cons n numbers ih =>
    rw [List.flatMap_cons, List.length_append, ih, length_bits, List.length_cons]
    omega

/-- Numbers below 64 are known by their bits. -/
theorem flatMap_bits_injective {numbers numbers' : List Nat} (h : ∀ n ∈ numbers, n < 64)
    (h' : ∀ n ∈ numbers', n < 64) (hbits : numbers.flatMap (bits 6) = numbers'.flatMap (bits 6)) :
    numbers = numbers' := by
  induction numbers generalizing numbers' with
  | nil =>
    have hlength := congrArg List.length hbits
    rw [length_flatMap_bits, length_flatMap_bits, List.length_nil] at hlength
    exact (List.length_eq_zero_iff.1 (by omega)).symm
  | cons n numbers ih =>
    cases numbers' with
    | nil => exact absurd (congrArg List.length hbits) (by simp)
    | cons n' numbers' =>
      rw [List.flatMap_cons, List.flatMap_cons] at hbits
      obtain ⟨hhead, htail⟩ := List.append_inj hbits (by simp)
      rw [List.forall_mem_cons] at h h'
      rw [bits_injective h.1 h'.1 hhead, ih h.2 h'.2 htail]

/-- The sextets have the bits of the bytes. -/
theorem flatMap_bits_sextets (bytes : Bytes) :
    ∃ spare < 6, (sextets bytes).flatMap (bits 6) =
      bytes.flatMap (fun b => bits 8 b.toNat) ++ List.replicate spare 0 := by
  fun_induction sextets bytes with
  | case1 => exact ⟨0, by decide, rfl⟩
  | case2 a =>
    refine ⟨4, by decide, ?_⟩
    simp [bits]
    omega
  | case3 a b =>
    refine ⟨2, by decide, ?_⟩
    have hb := b.toNat_lt
    simp [bits]
    omega
  | case4 a b c rest ih =>
    obtain ⟨spare, hspare, hrest⟩ := ih
    refine ⟨spare, hspare, ?_⟩
    have hb := b.toNat_lt
    have hc := c.toNat_lt
    have hgroup : (sextets [a, b, c]).flatMap (bits 6) =
        [a, b, c].flatMap fun b => bits 8 b.toNat := by
      simp [sextets, bits]
      omega
    calc (sextets [a, b, c] ++ sextets rest).flatMap (bits 6)
        = (sextets [a, b, c]).flatMap (bits 6) ++ (sextets rest).flatMap (bits 6) :=
          List.flatMap_append
      _ = ([a, b, c] ++ rest).flatMap (fun b => bits 8 b.toNat) ++ List.replicate spare 0 := by
          rw [hgroup, hrest, List.flatMap_append, List.append_assoc]

/-- Every byte string has one base64 text, the one that is written. -/
theorem isBase64_iff {text : List Char} {bytes : Bytes} :
    IsBase64 text bytes ↔ text = encode bytes := by
  obtain ⟨spare', hspare', hsextets⟩ := flatMap_bits_sextets bytes
  constructor
  · rintro ⟨numbers, spare, htext, hspare, hbits⟩
    obtain ⟨hlt, rfl⟩ := forall₂_alphabet_iff.1 htext
    -- the zeros that fill up whole sextets are fewer than six, so they are as many
    have hlength := congrArg List.length hbits
    have hlength' := congrArg List.length hsextets
    rw [length_flatMap_bits, List.length_append, List.length_replicate] at hlength hlength'
    obtain rfl : spare = spare' := by omega
    rw [encode_eq_map, flatMap_bits_injective hlt (sextets_lt bytes) (hbits.trans hsextets.symm)]
  · rintro rfl
    exact ⟨sextets bytes, spare', forall₂_alphabet_iff.2 ⟨sextets_lt bytes, encode_eq_map bytes⟩,
      hspare', hsextets⟩

end SecureInbox.Base64
