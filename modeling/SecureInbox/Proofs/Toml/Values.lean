import SecureInbox.Proofs.Text.Digits
import SecureInbox.Proofs.Toml.Strings
import SecureInbox.Toml.Parser

/-!
# TOML values are read back

The values that are written are truth values, numbers and strings, each up to the end of its
line. A text that *spells* an item (`Toml.Spells`) is read as that item with any lines after
it.

* `Toml.spells_boolean`, `Toml.spells_string`: any truth value and any string is spelled by
  its written form;
* `Toml.spells_integer`: so is a number, if it is within the range of TOML. Its digits could
  be the start of a date, of a time, of a number in another base or of a real number, but
  none of these goes on with a line end.
-/

namespace SecureInbox.Toml

/-! ## Numbers -/

/-- Digits end with their line. -/
theorem moreDigits?_append {digits : List Char} (hdigits : ∀ c ∈ digits, c.isDigit = true)
    (rest : List Char) :
    moreDigits? Char.isDigit (digits ++ '\n' :: rest) = some (digits, '\n' :: rest) := by
  induction digits with
  | nil => rfl
  | cons c digits ih =>
    have hc := hdigits c List.mem_cons_self
    have hne : c ≠ '_' := Text.ne_of_isDigit hc (by decide)
    have hstep : ∀ text, moreDigits? Char.isDigit (c :: text) =
        push c (moreDigits? Char.isDigit text) := by
      intro text
      rw [moreDigits?, if_pos hc]
      · exact fun _ _ h => absurd h hne
      · exact fun h => absurd h hne
    rw [List.cons_append, hstep, ih fun c hc => hdigits c (List.mem_cons_of_mem _ hc)]
    rfl

theorem whole?_toDigits (n : Nat) (rest : List Char) :
    whole? (Nat.toDigits 10 n ++ '\n' :: rest) = some (Nat.toDigits 10 n, '\n' :: rest) := by
  by_cases hzero : n = 0
  · subst hzero
    rfl
  · obtain ⟨c, digits, hnumber, hdigits, hc⟩ := Text.exists_toDigits n
    rw [hnumber, List.cons_append, whole?, digits?, if_pos (hdigits c List.mem_cons_self),
      moreDigits?_append fun c hc => hdigits c (List.mem_cons_of_mem _ hc)]
    · rfl
    · exact fun _ h => hc hzero (List.cons.inj h).1

/-- Digits up to the end of the line are followed by no mark. -/
theorem after?_of_fixed? {digits rest : List Char} (hdigits : ∀ c ∈ digits, c.isDigit = true)
    {count low high n : Nat} {text : List Char}
    (h : fixed? count low high (digits ++ '\n' :: rest) = some (n, text)) {mark : Char}
    (hmark : mark.isDigit = false) (hline : mark ≠ '\n') : after? mark text = none := by
  rw [fixed?] at h
  split at h
  case isFalse => exact nomatch h
  case isTrue hfit =>
    cases h
    -- the line end is no digit, so it was not reached
    have hle : count ≤ digits.length := by
      refine Nat.le_of_not_lt fun hlt => ?_
      have hmem : '\n' ∈ (digits ++ '\n' :: rest).take count := by
        rw [List.take_append, show count - digits.length = count - digits.length - 1 + 1 by omega]
        exact List.mem_append_right _ List.mem_cons_self
      exact absurd (List.all_eq_true.1 hfit.2.1 _ hmem) (by decide)
    rw [List.drop_append_of_le_length hle]
    cases hdrop : digits.drop count with
    | nil => exact if_neg (Ne.symm hline)
    | cons c digits =>
      have hc := hdigits c (List.mem_of_mem_drop (hdrop ▸ List.mem_cons_self))
      exact if_neg (Text.ne_of_isDigit hc hmark)

/-- Digits alone are no date and no time. -/
theorem moment?_digits {digits : List Char} (hdigits : ∀ c ∈ digits, c.isDigit = true)
    (rest : List Char) : moment? (digits ++ '\n' :: rest) = none := by
  have hdate : date? (digits ++ '\n' :: rest) = none := by
    rw [date?]
    cases hyear : fixed? 4 0 9999 (digits ++ '\n' :: rest) with
    | none => rfl
    | some r => simp [after?_of_fixed? hdigits hyear]
  have htime : time? (digits ++ '\n' :: rest) = none := by
    rw [time?]
    cases hhour : fixed? 2 0 23 (digits ++ '\n' :: rest) with
    | none => rfl
    | some r => simp [after?_of_fixed? hdigits hhour]
  rw [moment?, hdate, htime]
  rfl

theorem inRange?_natCast {n : Nat} (h : n < 9223372036854775808) :
    inRange? (n : Int) = some (n : Int) := by
  have hrange : -9223372036854775808 ≤ (n : Int) ∧ (n : Int) < 9223372036854775808 := by omega
  rw [inRange?, if_pos hrange]

/-- A number in the range of TOML is read back. -/
theorem decimal?_toDigits {n : Nat} (h : n < 9223372036854775808) (rest : List Char) :
    decimal? (Nat.toDigits 10 n ++ '\n' :: rest) = some (.integer n, '\n' :: rest) := by
  obtain ⟨c, digits, hnumber, hdigits, -⟩ := Text.exists_toDigits n
  have hc := hdigits c List.mem_cons_self
  have hwhole := whole?_toDigits n rest
  have hsign : sign (c :: (digits ++ '\n' :: rest)) = (false, c :: (digits ++ '\n' :: rest)) := by
    rw [sign]
    · exact fun _ h => Text.ne_of_isDigit hc (by decide) (List.cons.inj h).1
    · exact fun _ h => Text.ne_of_isDigit hc (by decide) (List.cons.inj h).1
  have hvalue : Text.decimal (c :: digits) = n := by rw [← hnumber, Text.decimal_toDigits]
  rw [hnumber, List.cons_append] at hwhole ⊢
  rw [decimal?, hsign]
  dsimp only
  split
  -- it is neither an infinity nor no number
  case h_1 heq => exact absurd (List.cons.inj heq).1 (Text.ne_of_isDigit hc (by decide))
  case h_2 heq => exact absurd (List.cons.inj heq).1 (Text.ne_of_isDigit hc (by decide))
  case h_3 =>
    have hfraction : fraction? ('\n' :: rest) = some (none, '\n' :: rest) := rfl
    have hexponent : exponent? ('\n' :: rest) = some (none, '\n' :: rest) := rfl
    rw [hwhole, Option.bind_eq_bind, Option.bind_some]
    dsimp only
    rw [hfraction, Option.bind_eq_bind, Option.bind_some]
    dsimp only
    rw [hexponent, Option.bind_eq_bind, Option.bind_some, if_pos ⟨rfl, rfl⟩]
    dsimp only
    rw [if_neg Bool.false_ne_true, hvalue, Int.ofNat_eq_natCast, inRange?_natCast h]
    rfl

/-- A zero is the whole number, not the start of a base. -/
theorem toDigits_ne_based {mark : Char} (hmark : mark ≠ '\n') (n : Nat) (rest rest' : List Char) :
    Nat.toDigits 10 n ++ '\n' :: rest ≠ '0' :: mark :: rest' := by
  intro heq
  by_cases hzero : n = 0
  · subst hzero
    exact hmark (List.cons.inj (List.cons.inj heq).2).1.symm
  · obtain ⟨c, digits, hnumber, -, hc⟩ := Text.exists_toDigits n
    rw [hnumber] at heq
    exact hc hzero (List.cons.inj heq).1

theorem number?_toDigits {n : Nat} (h : n < 9223372036854775808) (rest : List Char) :
    number? (Nat.toDigits 10 n ++ '\n' :: rest) = some (.integer n, '\n' :: rest) := by
  rw [number?, moment?_digits fun c hc => Text.isDigit_of_mem_toDigits hc]
  · exact decimal?_toDigits h rest
  · exact toDigits_ne_based (by decide) n rest
  · exact toDigits_ne_based (by decide) n rest
  · exact toDigits_ne_based (by decide) n rest

/-! ## Values -/

theorem skipBlanks_eq_self {c : Char} (h : isBlank c = false) (text : List Char) :
    skipBlanks (c :: text) = c :: text := by
  rw [skipBlanks, List.dropWhile_cons_of_neg (by simp [h])]

/-- A text that is read as an item, whatever lines come after it. -/
structure Spells (text : List Char) (item : Item) : Prop where
  skipBlanks : ∀ rest, skipBlanks (text ++ '\n' :: rest) = text ++ '\n' :: rest
  value : ∀ fuel rest, value? (fuel + 1) 0 (text ++ '\n' :: rest) = some (item, '\n' :: rest)

/-- A scalar is read if it does not begin like a list or a table. -/
theorem spells_scalar {c : Char} {text : List Char} {item : Item} (hblank : isBlank c = false)
    (hbracket : c ≠ '[') (hbrace : c ≠ '\x7b')
    (h : ∀ rest, scalar? (c :: (text ++ '\n' :: rest)) = some (item, '\n' :: rest)) :
    Spells (c :: text) item where
  skipBlanks rest := skipBlanks_eq_self hblank _
  value fuel rest := by
    rw [List.cons_append, value?]
    · exact h rest
    · exact fun _ heq => hbracket (List.cons.inj heq).1
    · exact fun _ heq => hbrace (List.cons.inj heq).1

theorem spells_boolean (b : Bool) : Spells (if b then "true" else "false").toList (.boolean b) := by
  cases b with
  | true => exact spells_scalar (by decide) (by decide) (by decide) fun _ => rfl
  | false => exact spells_scalar (by decide) (by decide) (by decide) fun _ => rfl

theorem spells_integer {n : Nat} (h : n < 9223372036854775808) :
    Spells (Nat.toDigits 10 n) (.integer n) := by
  have hread := number?_toDigits h
  obtain ⟨c, digits, hnumber, hdigits, -⟩ := Text.exists_toDigits n
  have hc := hdigits c List.mem_cons_self
  have hnot : ∀ {mark : Char}, mark.isDigit = false → c ≠ mark := Text.ne_of_isDigit hc
  have hspace : c ≠ ' ' := hnot (by decide)
  have htab : c ≠ '\t' := hnot (by decide)
  rw [hnumber] at hread ⊢
  refine spells_scalar (by simp [isBlank, hspace, htab]) (hnot (by decide)) (hnot (by decide))
    fun rest => ?_
  rw [scalar?]
  · exact hread rest
  all_goals exact fun _ heq => hnot (by decide) (List.cons.inj heq).1

/-- A string is quoted, so it begins with a quote. -/
theorem exists_renderString (s : List Char) :
    ∃ c text, renderString s = c :: text ∧ (c = '"' ∨ c = '\'') := by
  cases hquoting : quotingOf s with
  | basic => exact ⟨'"', _, by simp [renderString, hquoting]; rfl, .inl rfl⟩
  | literal => exact ⟨'\'', _, by simp [renderString, hquoting]; rfl, .inr rfl⟩
  | basicLines => exact ⟨'"', _, by simp [renderString, hquoting]; rfl, .inl rfl⟩
  | literalLines => exact ⟨'\'', _, by simp [renderString, hquoting]; rfl, .inr rfl⟩

theorem spells_string (s : List Char) : Spells (renderString s) (.string (String.ofList s)) := by
  have hread : ∀ rest, string? (renderString s ++ '\n' :: rest) =
      some (String.ofList s, '\n' :: rest) := fun rest =>
    string?_renderString s (by simp) (by simp)
  obtain ⟨c, text, hrender, hquote⟩ := exists_renderString s
  have hscalar : ∀ text, scalar? (c :: text) =
      (string? (c :: text)).map fun r => (.string r.1, r.2) := by
    rcases hquote with rfl | rfl <;> exact fun _ => rfl
  have hstart : isBlank c = false ∧ c ≠ '[' ∧ c ≠ '\x7b' := by
    rcases hquote with rfl | rfl <;> decide
  rw [hrender] at hread ⊢
  refine spells_scalar hstart.1 hstart.2.1 hstart.2.2 fun rest => ?_
  rw [hscalar, ← List.cons_append, hread]
  rfl

end SecureInbox.Toml
