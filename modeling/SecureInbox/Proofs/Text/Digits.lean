import SecureInbox.Text.Numeral

/-!
# Decimal digits

A number as it is written: digits, one at least, of which the first is no zero unless it is
the only one (`Text.exists_toDigits`), and which stand for the number
(`Text.decimal_toDigits`).
-/

namespace SecureInbox.Text

theorem isDigit_of_mem_toDigits {n : Nat} {c : Char} (h : c ∈ Nat.toDigits 10 n) :
    c.isDigit = true :=
  Nat.isDigit_of_mem_toDigits (by decide) (by decide) h

theorem decimal_toDigits (n : Nat) : decimal (Nat.toDigits 10 n) = n :=
  Nat.ofDigitChars_ten_toDigits

/-- A character that is no digit differs from every digit. -/
theorem ne_of_isDigit {c mark : Char} (hc : c.isDigit = true) (hmark : mark.isDigit = false) :
    c ≠ mark := by
  rintro rfl
  exact absurd hc (Bool.eq_false_iff.1 hmark)

/-- Only the number zero begins with a zero. -/
theorem head?_toDigits_ne_zero {n : Nat} (h : n ≠ 0) :
    (Nat.toDigits 10 n).head? ≠ some '0' := by
  induction n using Nat.strongRecOn with
  | ind n ih =>
    by_cases hlt : n < 10
    · have hall : ∀ n < 10, n ≠ 0 → n.digitChar ≠ '0' := by decide
      rw [Nat.toDigits_of_lt_base hlt]
      exact fun heq => hall n hlt h (Option.some.inj heq)
    · -- the first digit is that of the number without its last digit
      have hhead := ih (n / 10) (by omega) (by omega)
      obtain ⟨c, digits, hdigits⟩ := List.exists_cons_of_ne_nil
        (Nat.toDigits_ne_nil (n := n / 10) (b := 10))
      rw [Nat.toDigits_of_base_le (by decide) (Nat.le_of_not_lt hlt), hdigits]
      rwa [hdigits] at hhead

theorem exists_toDigits (n : Nat) :
    ∃ c digits, Nat.toDigits 10 n = c :: digits ∧ (∀ d ∈ c :: digits, d.isDigit = true) ∧
      (n ≠ 0 → c ≠ '0') := by
  obtain ⟨c, digits, hdigits⟩ := List.exists_cons_of_ne_nil
    (Nat.toDigits_ne_nil (n := n) (b := 10))
  refine ⟨c, digits, hdigits, fun d hd => isDigit_of_mem_toDigits (hdigits ▸ hd), fun h hc => ?_⟩
  exact head?_toDigits_ne_zero h (by rw [hdigits, hc]; rfl)

end SecureInbox.Text
