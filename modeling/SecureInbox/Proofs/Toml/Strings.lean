import SecureInbox.Toml.Printer
import SecureInbox.Toml.Scalar

/-!
# TOML strings are read back

A string is read back in whichever of the four ways it is quoted
(`Toml.string?_renderString`). Between double quotes this takes no condition, as everything
that could do harm is escaped. Between single quotes it takes that the string was found to
be harmless by `Toml.quotingOf`.

Where a string takes several lines, its last quotes run into the closing ones. The proofs
of both forms go by induction on the string while they hold back a run of up to two quotes:
it is read as part of the string once another character comes, or else with the closing
quotes.
-/

namespace SecureInbox.Toml

/-! ## Characters -/

/-- A character that is no control may stand as it is. -/
theorem isPlain_of_not_isControl {c : Char} (h : isControl c = false) : isPlain c = true := by
  simp only [isControl, Bool.or_eq_false_iff, decide_eq_false_iff_not, beq_eq_false_iff_ne] at h
  simp only [isPlain, Bool.or_eq_true, Bool.and_eq_true, decide_eq_true_eq, bne_iff_ne]
  omega

/-- Where nothing needs an escape, every character but a line end may stand as it is. -/
theorem isPlain_or_newline {s : List Char} (h : s.any needsEscape = false) {c : Char}
    (hc : c ∈ s) : isPlain c = true ∨ c = '\n' := by
  have hescape : needsEscape c = false :=
    Bool.eq_false_iff.2 fun hneeds => List.any_eq_false.1 h c hc hneeds
  by_cases hline : c = '\n'
  · exact .inr hline
  · by_cases htab : c = '\t'
    · subst htab
      exact .inl (by decide)
    · exact .inl (isPlain_of_not_isControl (by simpa [needsEscape, htab, hline] using hescape))

/-- A control is known by its number. -/
theorem numbered?_of_isControl {c : Char} (h : isControl c = true) :
    numbered? ['0', '0', upperDigit (c.toNat / 16), upperDigit (c.toNat % 16)] = some c := by
  have hall : ∀ n < 128, isControl (Char.ofNat n) = true →
      numbered? ['0', '0', upperDigit (n / 16), upperDigit (n % 16)] = some (Char.ofNat n) := by
    decide
  have hlt : c.toNat < 128 := by
    simp only [isControl, Bool.or_eq_true, decide_eq_true_eq, beq_iff_eq] at h
    omega
  have hc := hall c.toNat hlt
  rw [Char.ofNat_toNat] at hc
  exact hc h

/-- What stands for a character does not begin with a quote, nor with a line end unless it
    is one. -/
theorem exists_escape {c : Char} (hquote : c ≠ '"') (keepLines : Bool) :
    ∃ d text, escape keepLines c = d :: text ∧ d ≠ '"' ∧ d ≠ '\r' ∧ (d = '\n' → c = '\n') := by
  fun_cases escape keepLines c with
  | case3 _ _ h => exact ⟨_, _, rfl, by decide, by decide, fun _ => h⟩
  | case9 _ _ _ _ hreturn => exact ⟨_, _, rfl, hquote, hreturn, id⟩
  | _ => exact ⟨_, _, rfl, by decide, by decide, nofun⟩

/-- Nor does what stands for a string, except that the first two quotes are kept between
    three. -/
theorem exists_escaped (keepLines : Bool) (c : Char) (s : List Char) :
    ∃ d text, escaped keepLines 0 (c :: s) = d :: text ∧ (d = '"' → keepLines = true) ∧
      d ≠ '\r' ∧ (d = '\n' → c = '\n') := by
  by_cases hquote : c = '"'
  · subst hquote
    cases keepLines with
    | true => exact ⟨_, _, rfl, fun _ => rfl, by decide, nofun⟩
    | false => exact ⟨_, _, rfl, by decide, by decide, nofun⟩
  · obtain ⟨d, text, hescape, hd, hreturn, hline⟩ := exists_escape hquote keepLines
    rw [escaped, if_neg hquote, hescape]
    exact ⟨_, _, rfl, fun h => absurd h hd, hreturn, hline⟩

/-! ## Between double quotes -/

/-- A character is read back from what stands for it. -/
theorem quoted?_escape {c : Char} (hquote : c ≠ '"') (rest : List Char) :
    quoted? (escape false c ++ rest) = push c (quoted? rest) := by
  fun_cases escape false c with
  | case1 h | case2 _ h | case4 _ _ h | case5 _ _ _ h | case6 _ _ _ _ h | case7 _ _ _ _ _ h =>
    subst h
    rfl
  | case3 _ _ _ h => exact nomatch h
  | case8 _ _ _ _ _ _ hcontrol => simp [quoted?, numbered?_of_isControl hcontrol]
  | case9 _ _ _ _ _ hslash hcontrol =>
    have hplain := isPlain_of_not_isControl (Bool.eq_false_iff.2 hcontrol)
    simp [quoted?, hplain, hslash]

theorem quoted?_escaped (s rest : List Char) :
    quoted? (escaped false 0 s ++ '"' :: rest) = some (s, rest) := by
  induction s with
  | nil => rfl
  | cons c s ih =>
    by_cases hquote : c = '"'
    · subst hquote
      change push '"' (quoted? (escaped false 0 s ++ '"' :: rest)) = _
      rw [ih]
      rfl
    · rw [escaped, if_neg hquote, List.append_assoc, quoted?_escape hquote, ih]
      rfl

/-! ## Between three double quotes -/

/-- A character is read back from what stands for it. -/
theorem quotedLines?_escape {c : Char} (hquote : c ≠ '"') (rest : List Char) :
    quotedLines? .outside (escape true c ++ rest) = push c (quotedLines? .outside rest) := by
  fun_cases escape true c with
  | case1 h | case2 _ h | case3 _ _ h | case5 _ _ _ h | case6 _ _ _ _ h | case7 _ _ _ _ _ h =>
    subst h
    rfl
  | case4 _ _ _ h => exact absurd rfl h
  | case8 _ _ _ _ _ _ hcontrol => simp [quotedLines?, numbered?_of_isControl hcontrol]
  | case9 _ _ hline _ hreturn hslash hcontrol =>
    have hplain := isPlain_of_not_isControl (Bool.eq_false_iff.2 hcontrol)
    simp [quotedLines?, hplain, hquote, hslash, hreturn]

/-- Up to two quotes before another character belong to the string. -/
theorem quotedLines?_quotes {n : Nat} (hn : n ≤ 2) {c : Char} (hc : c ≠ '"') (text : List Char) :
    quotedLines? .outside (List.replicate n '"' ++ c :: text) =
      (quotedLines? .outside (c :: text)).map fun r => (List.replicate n '"' ++ r.1, r.2) := by
  obtain rfl | rfl | rfl : n = 0 ∨ n = 1 ∨ n = 2 := by omega
  · simp
  · simp [quotedLines?, hc, push, isPlain]
  · simp [quotedLines?, hc, push, isPlain, List.replicate]
    rfl

/-- Up to two quotes before the closing ones do, too. -/
theorem quotedLines?_close {n : Nat} (hn : n ≤ 2) {rest : List Char}
    (hrest : rest.head? ≠ some '"') :
    quotedLines? .outside (List.replicate n '"' ++ '"' :: '"' :: '"' :: rest) =
      some (List.replicate n '"', rest) := by
  cases rest with
  | nil =>
    obtain rfl | rfl | rfl : n = 0 ∨ n = 1 ∨ n = 2 := by omega
    · rfl
    · rfl
    · rfl
  | cons c rest =>
    have hc : c ≠ '"' := by simpa using hrest
    obtain rfl | rfl | rfl : n = 0 ∨ n = 1 ∨ n = 2 := by omega
    · simp [quotedLines?, hc]
    · simp [quotedLines?, hc]
    · simp [quotedLines?, List.replicate]

theorem quotedLines?_escaped {rest : List Char} (hrest : rest.head? ≠ some '"') {n : Nat}
    (hn : n ≤ 2) (s : List Char) :
    quotedLines? .outside
        (List.replicate n '"' ++ (escaped true n s ++ '"' :: '"' :: '"' :: rest)) =
      some (List.replicate n '"' ++ s, rest) := by
  induction s generalizing n with
  | nil =>
    rw [List.append_nil]
    exact quotedLines?_close hn hrest
  | cons c s ih =>
    have hfresh : quotedLines? .outside (escaped true 0 s ++ '"' :: '"' :: '"' :: rest) =
        some (s, rest) := ih (Nat.zero_le 2)
    by_cases hquote : c = '"'
    · subst hquote
      by_cases hlt : n < 2
      · -- the run gets longer
        have hnext := ih (n := n + 1) hlt
        rw [List.replicate_succ', List.append_assoc, List.append_assoc] at hnext
        rw [escaped, if_pos rfl, if_pos (by exact hlt)]
        exact hnext
      · rw [escaped, if_pos rfl, if_neg (by exact hlt), List.cons_append,
          quotedLines?_quotes hn (by decide)]
        change Option.map _ (push '"' (quotedLines? .outside (escaped true 0 s ++ _))) = _
        rw [hfresh]
        rfl
    · obtain ⟨d, text, hescape, hd, -⟩ := exists_escape hquote true
      rw [escaped, if_neg hquote, hescape, List.append_assoc, List.cons_append,
        quotedLines?_quotes hn hd, ← List.cons_append, ← hescape, quotedLines?_escape hquote,
        hfresh]
      rfl

/-! ## Between single quotes -/

theorem literal?_append {s : List Char} (hs : ∀ c ∈ s, isPlain c = true ∧ c ≠ '\'')
    (rest : List Char) : literal? (s ++ '\'' :: rest) = some (s, rest) := by
  induction s with
  | nil => rfl
  | cons c s ih =>
    obtain ⟨hplain, hquote⟩ := hs c List.mem_cons_self
    have hstep : literal? (c :: (s ++ '\'' :: rest)) = push c (literal? (s ++ '\'' :: rest)) := by
      simp [literal?, hplain]
    rw [List.cons_append, hstep, ih fun c hc => hs c (List.mem_cons_of_mem _ hc)]
    rfl

/-! ## Between three single quotes -/

/-- Up to two quotes before another character belong to the string. -/
theorem literalLines?_quotes {n : Nat} (hn : n ≤ 2) {c : Char} (hc : c ≠ '\'')
    (text : List Char) :
    literalLines? (List.replicate n '\'' ++ c :: text) =
      (literalLines? (c :: text)).map fun r => (List.replicate n '\'' ++ r.1, r.2) := by
  obtain rfl | rfl | rfl : n = 0 ∨ n = 1 ∨ n = 2 := by omega
  · simp
  · simp [literalLines?, hc, push, isPlain]
  · simp [literalLines?, hc, push, isPlain, List.replicate]
    rfl

/-- Up to two quotes before the closing ones do, too. -/
theorem literalLines?_close {n : Nat} (hn : n ≤ 2) {rest : List Char}
    (hrest : rest.head? ≠ some '\'') :
    literalLines? (List.replicate n '\'' ++ '\'' :: '\'' :: '\'' :: rest) =
      some (List.replicate n '\'', rest) := by
  cases rest with
  | nil =>
    obtain rfl | rfl | rfl : n = 0 ∨ n = 1 ∨ n = 2 := by omega
    · rfl
    · rfl
    · rfl
  | cons c rest =>
    have hc : c ≠ '\'' := by simpa using hrest
    obtain rfl | rfl | rfl : n = 0 ∨ n = 1 ∨ n = 2 := by omega
    · simp [literalLines?, hc]
    · simp [literalLines?, hc]
    · simp [literalLines?, List.replicate]

/-- A run goes on to count. -/
theorem le_longestRun (mark : Char) (run : Nat) (s : List Char) : run ≤ longestRun mark run s := by
  induction s generalizing run with
  | nil => exact Nat.le_refl run
  | cons c s ih =>
    rw [longestRun]
    split
    · exact Nat.le_trans (Nat.le_succ run) (ih (run + 1))
    · exact Nat.le_max_left _ _

/-- A character that stands in a string makes a run there. -/
theorem longestRun_pos_of_mem {mark : Char} {s : List Char} (h : mark ∈ s) (run : Nat) :
    0 < longestRun mark run s := by
  induction s generalizing run with
  | nil => exact absurd h List.not_mem_nil
  | cons c s ih =>
    rw [longestRun]
    split
    · exact Nat.lt_of_lt_of_le (Nat.succ_pos run) (le_longestRun mark (run + 1) s)
    case isFalse hne =>
      have hmem := (List.mem_cons.1 h).resolve_left (Ne.symm hne)
      exact Nat.lt_of_lt_of_le (ih hmem 0) (Nat.le_max_right _ _)

theorem literalLines?_append {rest : List Char} (hrest : rest.head? ≠ some '\'') {s : List Char}
    (hs : ∀ c ∈ s, isPlain c = true ∨ c = '\n') {n : Nat} (hrun : longestRun '\'' n s ≤ 2) :
    literalLines? (List.replicate n '\'' ++ (s ++ '\'' :: '\'' :: '\'' :: rest)) =
      some (List.replicate n '\'' ++ s, rest) := by
  have hn : n ≤ 2 := Nat.le_trans (le_longestRun _ n s) hrun
  induction s generalizing n with
  | nil =>
    rw [List.append_nil]
    exact literalLines?_close hn hrest
  | cons c s ih =>
    rw [longestRun] at hrun
    have hs' : ∀ c ∈ s, isPlain c = true ∨ c = '\n' := fun c hc => hs c (List.mem_cons_of_mem _ hc)
    by_cases hquote : c = '\''
    · subst hquote
      rw [if_pos rfl] at hrun
      have hnext := ih hs' hrun (Nat.le_trans (le_longestRun _ _ s) hrun)
      rw [List.replicate_succ', List.append_assoc, List.append_assoc] at hnext
      exact hnext
    · rw [if_neg hquote] at hrun
      have hfresh : literalLines? (s ++ '\'' :: '\'' :: '\'' :: rest) = some (s, rest) :=
        ih (n := 0) hs' (Nat.le_trans (Nat.le_max_right _ _) hrun) (Nat.zero_le 2)
      have hstep : ∀ text, literalLines? (c :: text) = push c (literalLines? text) := by
        intro text
        rcases hs c List.mem_cons_self with hplain | rfl
        · have hreturn : c ≠ '\r' := by
            rintro rfl
            exact absurd hplain (by decide)
          have hline : c ≠ '\n' := by
            rintro rfl
            exact absurd hplain (by decide)
          simp [literalLines?, hplain, hreturn, hquote]
        · rfl
      rw [List.cons_append, literalLines?_quotes hn hquote, hstep, hfresh]
      rfl

/-! ## Any string -/

/-- A string is put between single quotes if it has none, nor line ends nor controls. -/
theorem isPlain_of_literal {s : List Char} (h : quotingOf s = .literal) :
    ∀ c ∈ s, isPlain c = true ∧ c ≠ '\'' := by
  revert h
  fun_cases quotingOf s with
  | case2 lines escapes _ _ singles _ hfit =>
    intro _ c hc
    simp only [Bool.and_eq_true, Bool.not_eq_true', beq_iff_eq] at hfit
    obtain ⟨⟨hescapes, hsingles⟩, hlines⟩ := hfit
    have hline : c ≠ '\n' := by
      rintro rfl
      exact absurd (List.contains_iff_mem.2 hc) (by exact Bool.eq_false_iff.1 hlines)
    refine ⟨(isPlain_or_newline hescapes hc).resolve_right hline, ?_⟩
    rintro rfl
    exact absurd hsingles (Nat.ne_of_gt (longestRun_pos_of_mem hc 0))
  | _ => exact nofun

/-- It is put between three if there are at most two of them in a row, and no controls other
    than line ends. -/
theorem isPlain_of_literalLines {s : List Char} (h : quotingOf s = .literalLines) :
    (∀ c ∈ s, isPlain c = true ∨ c = '\n') ∧ longestRun '\'' 0 s ≤ 2 := by
  revert h
  fun_cases quotingOf s with
  | case4 lines escapes _ _ singles _ _ _ hfit =>
    intro _
    simp only [Bool.and_eq_true, Bool.not_eq_true', decide_eq_true_eq] at hfit
    obtain ⟨hescapes, hsingles⟩ := hfit
    exact ⟨fun c hc => isPlain_or_newline hescapes hc, hsingles⟩
  | _ => exact nofun

/-- Only a line end is taken off the start of a text. -/
theorem dropLineEnd_eq_self {text : List Char} (h : ∀ c ∈ text.head?, c ≠ '\n' ∧ c ≠ '\r') :
    dropLineEnd text = text := by
  cases text with
  | nil => rfl
  | cons c text =>
    obtain ⟨hline, hreturn⟩ := h c rfl
    simp [dropLineEnd, hline, hreturn]

/-- A line end is put before a string that begins with one, and taken off again. -/
theorem dropLineEnd_start {lines : Bool} {text : List Char}
    (h : lines = false → ∀ c ∈ text.head?, c ≠ '\n' ∧ c ≠ '\r') :
    dropLineEnd ((if lines then ['\n'] else []) ++ text) = text := by
  cases lines with
  | true => rfl
  | false => exact dropLineEnd_eq_self (h rfl)

theorem string?_escaped (s : List Char) {rest : List Char} (hrest : rest.head? ≠ some '"') :
    string? ('"' :: (escaped false 0 s ++ '"' :: rest)) = some (String.ofList s, rest) := by
  rw [string?, quoted?_escaped]
  · rfl
  -- it does not begin with three quotes
  intro rest' htwo
  cases s with
  | nil =>
    rw [escaped, List.nil_append] at htwo
    exact hrest (by rw [(List.cons.inj htwo).2]; rfl)
  | cons c s =>
    obtain ⟨d, text, hescaped, hd, -⟩ := exists_escaped false c s
    rw [hescaped] at htwo
    exact absurd (hd (List.cons.inj htwo).1) (by decide)

theorem string?_literal {s : List Char} (hs : ∀ c ∈ s, isPlain c = true ∧ c ≠ '\'')
    {rest : List Char} (hrest : rest.head? ≠ some '\'') :
    string? ('\'' :: (s ++ '\'' :: rest)) = some (String.ofList s, rest) := by
  rw [string?, literal?_append hs]
  · rfl
  intro rest' htwo
  cases s with
  | nil =>
    rw [List.nil_append] at htwo
    exact hrest (by rw [(List.cons.inj htwo).2]; rfl)
  | cons c s => exact (hs c List.mem_cons_self).2 (List.cons.inj htwo).1

theorem string?_escapedLines (s : List Char) {rest : List Char} (hrest : rest.head? ≠ some '"') :
    string? ('"' :: '"' :: '"' :: ((if s.contains '\n' then ['\n'] else []) ++
        (escaped true 0 s ++ '"' :: '"' :: '"' :: rest))) = some (String.ofList s, rest) := by
  have hread : quotedLines? .outside (escaped true 0 s ++ '"' :: '"' :: '"' :: rest) =
      some (s, rest) := quotedLines?_escaped hrest (Nat.zero_le 2) s
  rw [string?, dropLineEnd_start, hread]
  · rfl
  intro hlines d hd
  cases s with
  | nil =>
    cases hd
    decide
  | cons c s =>
    obtain ⟨d', text, hescaped, -, hreturn, hline⟩ := exists_escaped true c s
    rw [hescaped] at hd
    cases hd
    refine ⟨fun h => ?_, hreturn⟩
    rw [hline h] at hlines
    exact absurd hlines (by simp)

theorem string?_literalLines {s : List Char} (hs : ∀ c ∈ s, isPlain c = true ∨ c = '\n')
    (hrun : longestRun '\'' 0 s ≤ 2) {rest : List Char} (hrest : rest.head? ≠ some '\'') :
    string? ('\'' :: '\'' :: '\'' :: ((if s.contains '\n' then ['\n'] else []) ++
        (s ++ '\'' :: '\'' :: '\'' :: rest))) = some (String.ofList s, rest) := by
  have hread : literalLines? (s ++ '\'' :: '\'' :: '\'' :: rest) = some (s, rest) :=
    literalLines?_append hrest hs hrun
  rw [string?, dropLineEnd_start, hread]
  · rfl
  intro hlines d hd
  cases s with
  | nil =>
    cases hd
    decide
  | cons c s =>
    cases hd
    refine ⟨?_, ?_⟩
    · rintro rfl
      exact absurd hlines (by simp)
    · rintro rfl
      exact absurd (hs '\r' List.mem_cons_self) (by decide)

/-- A string is read back, unless what follows seems to continue its quotes. -/
theorem string?_renderString (s : List Char) {rest : List Char} (hdouble : rest.head? ≠ some '"')
    (hsingle : rest.head? ≠ some '\'') :
    string? (renderString s ++ rest) = some (String.ofList s, rest) := by
  cases hquoting : quotingOf s with
  | basic =>
    rw [← string?_escaped s hdouble]
    simp [renderString, hquoting]
  | literal =>
    rw [← string?_literal (isPlain_of_literal hquoting) hsingle]
    simp [renderString, hquoting]
  | basicLines =>
    rw [← string?_escapedLines s hdouble]
    simp [renderString, hquoting]
  | literalLines =>
    obtain ⟨hs, hrun⟩ := isPlain_of_literalLines hquoting
    rw [← string?_literalLines hs hrun hsingle]
    simp [renderString, hquoting]

end SecureInbox.Toml
