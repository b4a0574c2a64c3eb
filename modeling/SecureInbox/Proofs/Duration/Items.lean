import Mathlib.Data.List.Forall2
import SecureInbox.Duration.Parser
import SecureInbox.Duration.Printer
import SecureInbox.Proofs.Except
import SecureInbox.Proofs.Text.Digits

/-!
# Durations are read back

A written duration is a list of items with a blank between any two, each a number and the
name of a unit. The reader takes them one by one and adds them up:

* `Duration.amount_digits`, `Duration.exists_unitName`: a number is read up to the unit, and
  the name of a unit up to the number after it;
* `Duration.addItem_eq_ok`: an item makes the duration longer by so many units, if it is
  *regular*, that is, if its unit is known and it is less than a second in the small ones;
* `Duration.itemsFrom_eq_ok`: a list of items makes it longer by their sum;
* `Duration.total_writtenItems`: the items of a duration make up that duration, down to the
  nanosecond.

On the way the sum never gets beyond the duration that was written, so nothing overflows
(`Duration.parse_render`).
-/

namespace SecureInbox.Duration

/-! ## Numbers and names -/

theorem fit_of_lt {n : Nat} (h : n < 18446744073709551616) : fit n = .ok n := if_pos h

/-- A number goes on with the digits that follow, if it fits. -/
theorem amount_digits {digits : List Char} (hdigits : ∀ c ∈ digits, c.isDigit = true) (n i : Nat)
    (rest : List Char) (hlt : Nat.ofDigitChars 10 digits n < 18446744073709551616) :
    amount n i (digits ++ rest) =
      amount (Nat.ofDigitChars 10 digits n) (i + digits.length) rest := by
  induction digits generalizing n i with
  | nil => rfl
  | cons c digits ih =>
    have hstep : Nat.ofDigitChars 10 (c :: digits) n =
        Nat.ofDigitChars 10 digits (n * 10 + digitValue c) := by
      rw [Nat.ofDigitChars_cons, Nat.mul_comm]
      rfl
    rw [hstep] at hlt ⊢
    -- later digits only make the number larger
    have hle : n * 10 + digitValue c ≤ Nat.ofDigitChars 10 digits (n * 10 + digitValue c) := by
      rw [Nat.ofDigitChars_eq_ofDigitChars_zero]
      exact Nat.le_add_right_of_le (Nat.le_mul_of_pos_left _ (Nat.pow_pos (by decide)))
    rw [List.cons_append, amount, if_pos (hdigits c List.mem_cons_self),
      fit_of_lt (Nat.lt_of_le_of_lt hle hlt)]
    refine (ih (fun c hc => hdigits c (List.mem_cons_of_mem _ hc)) _ _ hlt).trans ?_
    rw [List.length_cons, Nat.add_assoc, Nat.add_comm 1]

/-- The characters of unit names are neither digits nor blanks. -/
theorem isDigit_of_isUnitLetter {c : Char} (h : isUnitLetter c = true) :
    c.isDigit = false ∧ Text.isBlank c = false := by
  rw [isUnitLetter, Bool.or_eq_true, beq_iff_eq] at h
  rcases h with h | rfl
  · have hletter : (65 ≤ c.toNat ∧ c.toNat ≤ 90) ∨ (97 ≤ c.toNat ∧ c.toNat ≤ 122) := by
      delta Char.isAlpha Char.isUpper Char.isLower at h
      simpa [UInt32.le_iff_toNat_le] using h
    have hdigit : c.isDigit = true ↔ 48 ≤ c.toNat ∧ c.toNat ≤ 57 := by
      delta Char.isDigit
      simp [UInt32.le_iff_toNat_le]
    refine ⟨Bool.eq_false_iff.2 fun h => ?_, ?_⟩
    · have := hdigit.1 h
      omega
    · simp only [Text.isBlank, Bool.or_eq_false_iff, Bool.and_eq_false_iff,
        decide_eq_false_iff_not, beq_eq_false_iff_ne]
      omega
  · decide

/-- A number ends at the name of its unit. -/
theorem amount_letter {c : Char} (h : isUnitLetter c = true) (n i : Nat) (rest : List Char) :
    amount n i (c :: rest) = .ok (⟨n, none⟩, i, c :: rest) := by
  obtain ⟨hdigit, hblank⟩ := isDigit_of_isUnitLetter h
  rw [amount, hdigit, hblank, h]
  rfl

/-- What follows the first of several items. -/
def following : List (List Char) → List Char
  | [] => []
  | item :: rest => ' ' :: spaced (item :: rest)

theorem spaced_cons (item : List Char) (rest : List (List Char)) :
    spaced (item :: rest) = item ++ following rest := by
  cases rest with
  | nil => exact (List.append_nil item).symm
  | cons => rfl

/-- A name is read up to the next item, together with the blank before that. -/
theorem exists_unitName {name : List Char} (hname : ∀ c ∈ name, isUnitLetter c = true) (i : Nat)
    (rest : List (List Char)) :
    ∃ j, unitName i (name ++ following rest) = .ok (name, j, spaced rest) := by
  induction name generalizing i with
  | nil =>
    cases rest with
    | nil => exact ⟨i, rfl⟩
    | cons item rest => exact ⟨i + ' '.utf8Size, rfl⟩
  | cons c name ih =>
    have hc := hname c List.mem_cons_self
    obtain ⟨hdigit, hblank⟩ := isDigit_of_isUnitLetter hc
    obtain ⟨j, hj⟩ := ih (fun c hc => hname c (List.mem_cons_of_mem _ hc)) (i + c.utf8Size)
    refine ⟨j, ?_⟩
    rw [List.cons_append, unitName, hdigit, hblank, hc, hj]
    rfl

/-! ## One item -/

/-- The length of a unit in nanoseconds. -/
def TimeUnit.nanoseconds (u : TimeUnit) : Nat :=
  match u.scale with
  | .seconds k => k * 1000000000
  | .nanoseconds k => k

/-- A duration is made longer if the sum is in range. -/
theorem lengthen_eq_ok {d : Duration} {seconds nanoseconds total : Nat}
    (hsub : nanoseconds < 1000000000)
    (htotal : d.nanoseconds + seconds * 1000000000 + nanoseconds = total)
    (hlt : total < 18446744073709551616 * 1000000000) :
    lengthen d seconds nanoseconds = .ok ⟨total, hlt⟩ := by
  subst htotal
  have hfit : d.subseconds + nanoseconds < 18446744073709551616 := by
    have := d.subseconds_lt
    omega
  rw [lengthen, fit_of_lt hfit, ok_bind, ofNanoseconds?, dif_pos hlt]

/-- A unit has a name, of letters only. -/
theorem TimeUnit.isUnitLetter_of_ofName? {name : List Char} {u : TimeUnit}
    (h : TimeUnit.ofName? name = some u) : name ≠ [] ∧ ∀ c ∈ name, isUnitLetter c = true := by
  have hnames : ∀ entry ∈ TimeUnit.names, ∀ s ∈ entry.2,
      s.toList ≠ [] ∧ s.toList.all isUnitLetter = true := by decide
  obtain ⟨entry, hfind, -⟩ := Option.map_eq_some_iff.1 h
  have hany := List.find?_some hfind
  obtain ⟨s, hs, heq⟩ := List.any_eq_true.1 hany
  obtain ⟨hne, hletters⟩ := hnames entry (List.mem_of_find?_eq_some hfind) s hs
  rw [← eq_of_beq heq]
  exact ⟨hne, List.all_eq_true.1 hletters⟩

/-- An item that is read back: its unit is known by that name, and it stays below a second
    in the units that are counted in nanoseconds. -/
structure IsRegular (item : Nat × String) (u : TimeUnit) : Prop where
  whole_lt : item.1 < 18446744073709551616
  ofName? : TimeUnit.ofName? item.2.toList = some u
  subsecond : ∀ k, u.scale = .nanoseconds k → item.1 * k < 1000000000

theorem isRegular_seconds {name : String} {u : TimeUnit} {k : Nat}
    (hname : TimeUnit.ofName? name.toList = some u) (hscale : u.scale = .seconds k) {n : Nat}
    (hlt : n < 18446744073709551616) : IsRegular (n, name) u where
  whole_lt := hlt
  ofName? := hname
  subsecond k' hk' := by rw [hscale] at hk'; exact nomatch hk'

theorem isRegular_nanoseconds {name : String} {u : TimeUnit} {k : Nat}
    (hname : TimeUnit.ofName? name.toList = some u) (hscale : u.scale = .nanoseconds k) {n : Nat}
    (hlt : n < 18446744073709551616) (hsub : n * k < 1000000000) : IsRegular (n, name) u where
  whole_lt := hlt
  ofName? := hname
  subsecond k' hk' := by rw [hscale] at hk'; cases hk'; exact hsub

/-- An item makes a duration longer by so many units. -/
theorem addItem_eq_ok {item : Nat × String} {u : TimeUnit} (h : IsRegular item u) {d : Duration}
    {total : Nat} (htotal : d.nanoseconds + u.nanoseconds * item.1 = total)
    (hlt : total < 18446744073709551616 * 1000000000) :
    addItem d ⟨item.1, none⟩ item.2.toList = .ok ⟨total, hlt⟩ := by
  have hadd : addItem d ⟨item.1, none⟩ item.2.toList = addWhole d item.1 u := by
    simp only [addItem, h.ofName?]
    cases addWhole d item.1 u <;> rfl
  rw [hadd]
  cases hscale : u.scale with
  | seconds k =>
    have hwhole : addWhole d item.1 u = fit (item.1 * k) >>= fun n => lengthen d n 0 := by
      rw [addWhole, hscale]
    have hu : u.nanoseconds = k * 1000000000 := by rw [TimeUnit.nanoseconds, hscale]
    rw [hu, Nat.mul_comm, ← Nat.mul_assoc] at htotal
    have hfit : item.1 * k < 18446744073709551616 := by omega
    rw [hwhole, fit_of_lt hfit, ok_bind]
    exact lengthen_eq_ok (by decide) (by rw [Nat.add_zero, htotal]) hlt
  | nanoseconds k =>
    have hwhole : addWhole d item.1 u = fit (item.1 * k) >>= fun n => lengthen d 0 n := by
      rw [addWhole, hscale]
    have hu : u.nanoseconds = k := by rw [TimeUnit.nanoseconds, hscale]
    have hsub := h.subsecond k hscale
    have hfit : item.1 * k < 18446744073709551616 := by omega
    rw [hu, Nat.mul_comm] at htotal
    rw [hwhole, fit_of_lt hfit, ok_bind]
    exact lengthen_eq_ok hsub (by rw [Nat.zero_mul, Nat.add_zero, htotal]) hlt

/-! ## Several items -/

/-- Reads items, where the first one is about to begin. -/
def itemsFrom (fuel : Nat) (d : Duration) (i : Nat) (text : List Char) : Except Error Duration := do
  match ← firstDigit i i text with
  | none => return d
  | some (n, i, text) => items fuel d n i text

/-- The first item is added, and the others are read after that. -/
theorem exists_itemsFrom_cons {item : Nat × String} {u : TimeUnit} (h : IsRegular item u)
    (fuel : Nat) (d : Duration) (i : Nat) (rest : List (List Char)) :
    ∃ j, itemsFrom (fuel + 1) d i (spaced (itemText item :: rest)) =
      addItem d ⟨item.1, none⟩ item.2.toList >>= fun d => itemsFrom fuel d j (spaced rest) := by
  obtain ⟨c, digits, hnumber, hdigits, -⟩ := Text.exists_toDigits item.1
  obtain ⟨hne, hletters⟩ := TimeUnit.isUnitLetter_of_ofName? h.ofName?
  obtain ⟨letter, letters, hname⟩ := List.exists_cons_of_ne_nil hne
  have hvalue : Nat.ofDigitChars 10 digits (digitValue c) = item.1 := by
    have hall : Nat.ofDigitChars 10 (c :: digits) 0 = item.1 :=
      hnumber ▸ Nat.ofDigitChars_ten_toDigits
    rw [← hall, Nat.ofDigitChars_cons, Nat.mul_zero, Nat.zero_add]
    rfl
  have hfirst : ∀ text, itemsFrom (fuel + 1) d i (c :: text) =
      items (fuel + 1) d (digitValue c) (i + 1) text := by
    intro text
    rw [itemsFrom, firstDigit, if_pos (hdigits c List.mem_cons_self)]
    rfl
  have hamount : ∀ text, amount (digitValue c) (i + 1) (digits ++ letter :: text) =
      .ok (⟨item.1, none⟩, i + 1 + digits.length, letter :: text) := by
    intro text
    rw [amount_digits (fun c hc => hdigits c (List.mem_cons_of_mem _ hc)) _ _ _
      (hvalue ▸ h.whole_lt), hvalue,
      amount_letter (hletters letter (hname ▸ List.mem_cons_self))]
  obtain ⟨j, hunit⟩ := exists_unitName hletters (i + 1 + digits.length) rest
  rw [hname] at hunit
  refine ⟨j, ?_⟩
  rw [spaced_cons, itemText, hnumber, hname, List.cons_append, List.cons_append,
    List.append_assoc, List.cons_append, hfirst]
  simp only [items, hamount, ok_bind]
  rw [← List.cons_append, hunit, ok_bind]
  rfl

/-- What an item stands for, in nanoseconds. -/
def itemNanoseconds (item : Nat × String) : Nat :=
  ((TimeUnit.ofName? item.2.toList).map (·.nanoseconds)).getD 0 * item.1

/-- The sum of some items in nanoseconds. -/
def total (items : List (Nat × String)) : Nat :=
  items.foldr (fun item n => itemNanoseconds item + n) 0

theorem total_cons (item : Nat × String) (items : List (Nat × String)) :
    total (item :: items) = itemNanoseconds item + total items := rfl

theorem IsRegular.itemNanoseconds_eq {item : Nat × String} {u : TimeUnit} (h : IsRegular item u) :
    itemNanoseconds item = u.nanoseconds * item.1 := by
  rw [itemNanoseconds, h.ofName?]
  rfl

/-- Items are read as their sum, if that is in range. -/
theorem itemsFrom_eq_ok {written : List (Nat × String)}
    (hwritten : ∀ item ∈ written, ∃ u, IsRegular item u) {fuel : Nat}
    (hfuel : written.length ≤ fuel) {d : Duration} {sum : Nat}
    (hsum : d.nanoseconds + total written = sum)
    (hlt : sum < 18446744073709551616 * 1000000000) (i : Nat) :
    itemsFrom fuel d i (spaced (written.map itemText)) = .ok ⟨sum, hlt⟩ := by
  induction written generalizing fuel d i with
  | nil =>
    subst hsum
    rfl
  | cons item rest ih =>
    obtain ⟨u, hitem⟩ := hwritten item List.mem_cons_self
    obtain ⟨fuel, rfl⟩ : ∃ n, fuel = n + 1 := ⟨fuel - 1, by rw [List.length_cons] at hfuel; omega⟩
    obtain ⟨j, hj⟩ := exists_itemsFrom_cons hitem fuel d i (rest.map itemText)
    rw [total_cons, hitem.itemNanoseconds_eq, ← Nat.add_assoc] at hsum
    have hnext : d.nanoseconds + u.nanoseconds * item.1 < 18446744073709551616 * 1000000000 := by
      omega
    rw [List.map_cons, hj, addItem_eq_ok hitem rfl hnext, ok_bind]
    exact ih (fun item hitem => hwritten item (List.mem_cons_of_mem _ hitem))
      (Nat.le_of_succ_le_succ hfuel) hsum j

/-! ## What is written -/

/-- The items that are written for a duration. -/
def writtenItems (d : Duration) : List (Nat × String) :=
  if d.nanoseconds = 0 then [(0, "s")] else d.amounts.filter fun item => item.1 != 0

theorem render_eq (d : Duration) : d.render = spaced (d.writtenItems.map itemText) := by
  rw [render, writtenItems]
  split
  · rfl
  · rfl

/-- Items of nothing do not count. -/
theorem total_filter (items : List (Nat × String)) :
    total (items.filter fun item => item.1 != 0) = total items := by
  induction items with
  | nil => rfl
  | cons item items ih =>
    by_cases hzero : item.1 = 0
    · rw [List.filter_cons_of_neg (by simpa using hzero), ih, total_cons, itemNanoseconds, hzero,
        Nat.mul_zero, Nat.zero_add]
    · rw [List.filter_cons_of_pos (by simpa using hzero), total_cons, total_cons, ih]

/-- The units of a duration, the longest first. -/
def writtenUnits : List TimeUnit :=
  [.year, .month, .day, .hour, .minute, .second, .millisecond, .microsecond, .nanosecond]

/-- Each number of a duration is read back as one of its unit. -/
theorem forall₂_isRegular_amounts (d : Duration) :
    List.Forall₂ IsRegular d.amounts writtenUnits := by
  have hseconds := d.seconds_lt
  have hsubseconds := d.subseconds_lt
  refine .cons (isRegular_seconds ?year rfl ?_) <| .cons (isRegular_seconds ?month rfl ?_) <|
    .cons (isRegular_seconds ?day rfl ?_) <| .cons (isRegular_seconds (by decide) rfl ?_) <|
    .cons (isRegular_seconds (by decide) rfl ?_) <|
    .cons (isRegular_seconds (by decide) rfl ?_) <|
    .cons (isRegular_nanoseconds (by decide) rfl ?_ ?_) <|
    .cons (isRegular_nanoseconds (by decide) rfl ?_ ?_) <|
    .cons (isRegular_nanoseconds (by decide) rfl ?_ ?_) .nil
  -- the names of the three longest units depend on the number
  case year | month | day => split <;> decide
  all_goals omega

theorem total_of_forall₂ {items : List (Nat × String)} {units : List TimeUnit}
    (h : List.Forall₂ IsRegular items units) :
    total items =
      (List.zipWith (fun n u => u.nanoseconds * n) (items.map Prod.fst) units).foldr (· + ·) 0 := by
  induction h with
  | nil => rfl
  | cons hitem _ ih =>
    rw [total_cons, hitem.itemNanoseconds_eq, ih]
    rfl

/-- Seconds are cut up without a remainder. -/
theorem sum_seconds (s : Nat) :
    31557600 * 1000000000 * (s / 31557600) +
      (2630016 * 1000000000 * (s % 31557600 / 2630016) +
        (86400 * 1000000000 * (s % 31557600 % 2630016 / 86400) +
          (3600 * 1000000000 * (s % 31557600 % 2630016 % 86400 / 3600) +
            (60 * 1000000000 * (s % 31557600 % 2630016 % 86400 % 3600 / 60) +
              1 * 1000000000 * (s % 31557600 % 2630016 % 86400 % 60))))) = s * 1000000000 := by
  omega

theorem sum_subseconds (n : Nat) :
    1000000 * (n / 1000000) + (1000 * (n / 1000 % 1000) + (1 * (n % 1000) + 0)) = n := by
  omega

/-- The units of a duration make it up. -/
theorem total_amounts (d : Duration) : total d.amounts = d.nanoseconds := by
  have hnanoseconds : d.seconds * 1000000000 + d.subseconds = d.nanoseconds :=
    Nat.div_add_mod' d.nanoseconds 1000000000
  rw [total_of_forall₂ d.forall₂_isRegular_amounts]
  simp only [amounts, writtenUnits, List.map_cons, List.map_nil, List.zipWith_cons_cons,
    List.zipWith_nil_left, List.foldr_cons, List.foldr_nil, TimeUnit.nanoseconds, TimeUnit.scale]
  rw [sum_subseconds, ← hnanoseconds, ← sum_seconds d.seconds]
  simp only [Nat.add_assoc]

/-- Each item that is written is read back. -/
theorem exists_isRegular_of_mem_writtenItems {d : Duration} {item : Nat × String}
    (hitem : item ∈ d.writtenItems) : ∃ u, IsRegular item u := by
  rw [writtenItems] at hitem
  split at hitem
  · rw [List.mem_singleton.1 hitem]
    exact ⟨.second, isRegular_seconds (by decide) rfl (by decide)⟩
  · obtain ⟨i, hi, rfl⟩ := List.getElem_of_mem (List.mem_of_mem_filter hitem)
    have hunits := d.forall₂_isRegular_amounts
    exact ⟨_, hunits.get hi (hunits.length_eq ▸ hi)⟩

/-- What is written makes the duration up. -/
theorem total_writtenItems (d : Duration) : total d.writtenItems = d.nanoseconds := by
  rw [writtenItems]
  split
  case isTrue hzero => rw [hzero, total_cons, itemNanoseconds, Nat.mul_zero]; rfl
  case isFalse => rw [total_filter, total_amounts]

theorem writtenItems_ne_nil (d : Duration) : d.writtenItems ≠ [] := by
  intro hnil
  have hzero : 0 = d.nanoseconds := by rw [← total_writtenItems, hnil]; rfl
  rw [writtenItems, if_pos hzero.symm] at hnil
  exact nomatch hnil

/-! ## The whole text -/

theorem length_le_length_spaced {items : List (List Char)} (h : ∀ item ∈ items, item ≠ []) :
    items.length ≤ (spaced items).length := by
  induction items with
  | nil => exact Nat.zero_le _
  | cons item rest ih =>
    have hitem := List.length_pos_iff.2 (h item List.mem_cons_self)
    have hrest := ih fun item hitem => h item (List.mem_cons_of_mem _ hitem)
    have hfollowing : rest.length ≤ (following rest).length := by
      cases rest with
      | nil => exact Nat.zero_le _
      | cons => exact Nat.le_succ_of_le hrest
    rw [spaced_cons, List.length_append, List.length_cons]
    omega

/-- A text that begins with a digit and goes on is read item by item. -/
theorem parse_eq_itemsFrom {c : Char} {text : List Char} (hc : c.isDigit = true)
    (htext : text ≠ []) :
    parse (c :: text) = itemsFrom (c :: text).length zero 0 (c :: text) := by
  have hne : c :: text ≠ ['0'] := fun h => htext (List.cons.inj h).2
  rw [parse, if_neg hne, itemsFrom, firstDigit, if_pos hc]
  rfl

/-- Something written begins with a digit, and goes on with the name of the first unit at
    least. -/
theorem exists_render (d : Duration) :
    ∃ c text, d.render = c :: text ∧ c.isDigit = true ∧ text ≠ [] := by
  obtain ⟨item, rest, hwritten⟩ := List.exists_cons_of_ne_nil d.writtenItems_ne_nil
  obtain ⟨u, hitem⟩ := exists_isRegular_of_mem_writtenItems (hwritten ▸ List.mem_cons_self)
  obtain ⟨c, digits, hnumber, hdigits, -⟩ := Text.exists_toDigits item.1
  obtain ⟨hne, -⟩ := TimeUnit.isUnitLetter_of_ofName? hitem.ofName?
  refine ⟨c, digits ++ (item.2.toList ++ following (rest.map itemText)), ?_,
    hdigits c List.mem_cons_self, ?_⟩
  · rw [render_eq, hwritten, List.map_cons, spaced_cons, itemText, hnumber, List.cons_append,
      List.cons_append, List.append_assoc]
  · exact List.append_ne_nil_of_right_ne_nil _ (List.append_ne_nil_of_left_ne_nil hne _)

/-- A duration is read back from its written form. -/
theorem parse_render (d : Duration) : parse d.render = .ok d := by
  have hregular : ∀ item ∈ d.writtenItems, ∃ u, IsRegular item u :=
    fun _ hitem => exists_isRegular_of_mem_writtenItems hitem
  have hlength : d.writtenItems.length ≤ d.render.length := by
    rw [render_eq, ← List.length_map itemText]
    refine length_le_length_spaced fun text htext => ?_
    obtain ⟨item, -, rfl⟩ := List.mem_map.1 htext
    exact List.append_ne_nil_of_left_ne_nil Nat.toDigits_ne_nil _
  have hsum : zero.nanoseconds + total d.writtenItems = d.nanoseconds := by
    rw [total_writtenItems, zero, Nat.zero_add]
  have hitems := itemsFrom_eq_ok hregular hlength hsum d.lt_limit 0
  rw [← render_eq] at hitems
  obtain ⟨c, text, hrender, hc, htext⟩ := d.exists_render
  rw [hrender] at hitems ⊢
  rw [parse_eq_itemsFrom hc htext, hitems]

/-- The longest duration there is. -/
example : parse "584542046090years 7months 15days 17h 5m 3s 999ms 999us 999ns".toList =
    .ok ⟨18446744073709551615999999999, by decide⟩ := rfl

/-- A nanosecond more is refused. -/
example : parse "584542046090years 7months 15days 17h 5m 3s 999ms 999us 1000ns".toList =
    .error .numberOverflow := rfl

end SecureInbox.Duration
