/-!
# Blank characters

The characters with the property `White_Space`, and trimming them off a text.
Bodies are trimmed at their end before they are decoded, secrets at both ends.
-/

namespace SecureInbox.Text

/-- The characters with the property `White_Space`. -/
def isBlank (c : Char) : Bool :=
  let n := c.toNat
  (9 ≤ n && n ≤ 13) || n == 0x20 || n == 0x85 || n == 0xA0 || n == 0x1680 ||
    (0x2000 ≤ n && n ≤ 0x200A) || n == 0x2028 || n == 0x2029 || n == 0x202F || n == 0x205F ||
    n == 0x3000

/-- The text without the blanks at its end. -/
def trimEnd (text : List Char) : List Char := (text.reverse.dropWhile isBlank).reverse

/-- The text without the blanks at either end. -/
def trim (text : List Char) : List Char := trimEnd (text.dropWhile isBlank)

/-- Every blank of the ASCII range known to the standard library is one here. -/
theorem isBlank_of_isWhitespace {c : Char} (h : c.isWhitespace = true) : isBlank c = true := by
  simp only [Char.isWhitespace, Bool.or_eq_true, decide_eq_true_eq] at h
  rcases h with ((rfl | rfl) | rfl) | rfl <;> decide

/-- Trimming cuts the text into what it keeps and a run of blanks. -/
theorem exists_trimEnd_append (text : List Char) :
    ∃ blanks, text = trimEnd text ++ blanks ∧ ∀ c ∈ blanks, isBlank c = true := by
  refine ⟨(text.reverse.takeWhile isBlank).reverse, ?_, fun c hc => ?_⟩
  · rw [trimEnd, ← List.reverse_append, List.takeWhile_append_dropWhile, List.reverse_reverse]
  · exact List.all_eq_true.1 List.all_takeWhile c (List.mem_reverse.1 hc)

/-- Blanks at the end make no difference. -/
theorem trimEnd_append_blanks {blanks : List Char} (h : ∀ c ∈ blanks, isBlank c = true)
    (text : List Char) : trimEnd (text ++ blanks) = trimEnd text := by
  have hblanks : ∀ c ∈ blanks.reverse, isBlank c = true := fun c hc => h c (List.mem_reverse.1 hc)
  rw [trimEnd, List.reverse_append, List.dropWhile_append_of_pos hblanks, trimEnd]

/-- There is nothing to trim off a text without blanks. -/
theorem trimEnd_eq_self {text : List Char} (h : ∀ c ∈ text, isBlank c = false) :
    trimEnd text = text := by
  rw [trimEnd]
  cases hreverse : text.reverse with
  | nil => rw [List.dropWhile_nil, List.reverse_nil, List.reverse_eq_nil_iff.1 hreverse]
  | cons c rest =>
    have hc : isBlank c = false := h c (List.mem_reverse.1 (hreverse ▸ List.mem_cons_self))
    rw [List.dropWhile_cons_of_neg (Bool.eq_false_iff.1 hc), ← hreverse, List.reverse_reverse]

/-- What begins a text stays at its beginning unless it is blank. -/
theorem exists_trimEnd_cons {c : Char} (hc : isBlank c = false) (text : List Char) :
    ∃ rest, trimEnd (c :: text) = c :: rest := by
  obtain ⟨blanks, htext, hblanks⟩ := exists_trimEnd_append (c :: text)
  cases htrim : trimEnd (c :: text) with
  | nil =>
    have hmem : c ∈ blanks := by
      rw [htrim, List.nil_append] at htext
      exact htext ▸ List.mem_cons_self
    exact Bool.noConfusion (hc.symm.trans (hblanks c hmem))
  | cons c' rest =>
    rw [htrim, List.cons_append] at htext
    exact ⟨rest, by rw [(List.cons.inj htext).1]⟩

end SecureInbox.Text
