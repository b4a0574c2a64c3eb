import Mathlib.Data.List.Nodup
import Mathlib.Data.List.TakeDrop
import SecureInbox.Proofs.Toml.Values

/-!
# TOML documents are read back

A document is written line by line: the header of a section, its pairs, and empty lines. Names
stand without quotes and have no dots.

* `Toml.ReadsAs.header`, `Toml.ReadsAs.line`: what lines are read as, told for one line and
  those after it. Every line has a character at least, so there is always fuel for the next;
* `Toml.document?_plain`: sections with different names, each with pairs of different names,
  make a table each.
-/

namespace SecureInbox.Toml

/-! ## Names -/

/-- The name may stand without quotes. -/
def IsBareName (name : String) : Prop := name.toList ≠ [] ∧ name.toList.all isBare = true

instance (name : String) : Decidable (IsBareName name) :=
  inferInstanceAs (Decidable (_ ∧ _))

/-- The characters of such a name have no other meaning within a line. -/
theorem ne_of_isBare {c mark : Char} (hc : isBare c = true) (hmark : isBare mark = false) :
    c ≠ mark := by
  rintro rfl
  exact absurd hc (Bool.eq_false_iff.1 hmark)

theorem IsBareName.isBare {name : String} (h : IsBareName name) {c : Char}
    (hc : c ∈ name.toList) : isBare c = true := List.all_eq_true.1 h.2 c hc

theorem IsBareName.exists_eq_cons {name : String} (h : IsBareName name) :
    ∃ c text, name.toList = c :: text ∧ Toml.isBare c = true := by
  obtain ⟨c, text, hname⟩ := List.exists_cons_of_ne_nil h.1
  exact ⟨c, text, hname, h.isBare (hname ▸ List.mem_cons_self)⟩

theorem skipBlanks_name {name : String} (h : IsBareName name) (rest : List Char) :
    skipBlanks (name.toList ++ rest) = name.toList ++ rest := by
  obtain ⟨c, text, hname, hc⟩ := h.exists_eq_cons
  have hspace : c ≠ ' ' := ne_of_isBare hc (by decide)
  have htab : c ≠ '\t' := ne_of_isBare hc (by decide)
  rw [hname, List.cons_append, skipBlanks_eq_self (by simp [isBlank, hspace, htab])]

theorem simpleName?_name {name : String} (h : IsBareName name) {c : Char}
    (hc : isBare c = false) (rest : List Char) :
    simpleName? (name.toList ++ c :: rest) = some (name, c :: rest) := by
  have hspan : (name.toList ++ c :: rest).span isBare = (name.toList, c :: rest) := by
    have hall : ∀ c ∈ name.toList, isBare c = true := fun _ => h.isBare
    rw [List.span_eq_takeWhile_dropWhile, List.takeWhile_append_of_pos hall,
      List.dropWhile_append_of_pos hall, List.takeWhile_cons_of_neg (by simp [hc]),
      List.dropWhile_cons_of_neg (by simp [hc]), List.append_nil]
  obtain ⟨d, text, hname, hd⟩ := h.exists_eq_cons
  have hstring : String.ofList (d :: text) = name := by rw [← hname, String.ofList_toList]
  rw [hname, List.cons_append] at hspan ⊢
  rw [simpleName?, hspan]
  · dsimp only
    rw [hstring]
  · exact fun _ heq => ne_of_isBare hd (by decide) (List.cons.inj heq).1
  · exact fun _ heq => ne_of_isBare hd (by decide) (List.cons.inj heq).1

/-- A name without dots is read up to the mark that follows. -/
theorem dottedName?_name {name : String} (h : IsBareName name) {c mark : Char}
    {rest text : List Char} (hc : isBare c = false)
    (hmark : skipBlanks (c :: rest) = mark :: text) (hdot : mark ≠ '.') :
    dottedName? (name.toList ++ c :: rest) = some (([], name), mark :: text) := by
  have hnames : ∀ fuel, names? (fuel + 1) (name.toList ++ c :: rest) =
      some ([name], mark :: text) := by
    intro fuel
    rw [names?, skipBlanks_name h, simpleName?_name h hc, Option.bind_eq_bind, Option.bind_some]
    dsimp only
    rw [hmark]
    split
    case h_1 heq => exact absurd (List.cons.inj heq).1 hdot
    case h_2 => rfl
  rw [dottedName?, hnames]
  rfl

/-! ## Lines -/

/-- A header is read with its line. -/
theorem header?_name {name : String} (h : IsBareName name) (rest : List Char) :
    header? ('[' :: (name.toList ++ ']' :: '\n' :: rest)) = some (⟨[], name, false⟩, rest) := by
  have hdotted : dottedName? (name.toList ++ ']' :: '\n' :: rest) =
      some (([], name), ']' :: '\n' :: rest) :=
    dottedName?_name h (by decide) (skipBlanks_eq_self (by decide) _) (by decide)
  obtain ⟨c, text, hname, hc⟩ := h.exists_eq_cons
  rw [hname, List.cons_append] at hdotted ⊢
  rw [header?, hdotted]
  · rfl
  · exact fun _ heq => ne_of_isBare hc (by decide) (List.cons.inj heq).1

/-- A pair is read with its line. -/
theorem pair?_line {name : String} (h : IsBareName name) {value : List Char} {item : Item}
    (hvalue : Spells value item) (rest : List Char) :
    pair? (name.toList ++ ' ' :: '=' :: ' ' :: (value ++ '\n' :: rest)) =
      some (⟨[], name, item⟩, rest) := by
  have hdotted : dottedName? (name.toList ++ ' ' :: '=' :: ' ' :: (value ++ '\n' :: rest)) =
      some (([], name), '=' :: ' ' :: (value ++ '\n' :: rest)) :=
    dottedName?_name h (by decide) rfl (by decide)
  have hskip : skipBlanks (' ' :: (value ++ '\n' :: rest)) = value ++ '\n' :: rest :=
    hvalue.skipBlanks rest
  rw [pair?, hdotted, Option.bind_eq_bind, Option.bind_some]
  dsimp only
  rw [after?, if_pos rfl, Option.bind_eq_bind, Option.bind_some, hskip, hvalue.value]
  rfl

/-! ## Sections -/

/-- The text is read as these pairs before the first header, and these sections. -/
def ReadsAs (text : List Char) (pairs : List Pair) (sections : List Section) : Prop :=
  ∀ fuel, text.length < fuel → statements? fuel text = some (pairs, sections)

theorem readsAs_nil : ReadsAs [] [] []
  | 0, h => absurd h (Nat.not_lt_zero 0)
  | _ + 1, _ => rfl

variable {pairs : List Pair} {sections : List Section} {rest : List Char}

/-- An empty line does not count. -/
theorem ReadsAs.newline (h : ReadsAs rest pairs sections) :
    ReadsAs ('\n' :: rest) pairs sections
  | 0, hlt => absurd hlt (Nat.not_lt_zero _)
  | fuel + 1, hlt => h fuel (Nat.lt_of_succ_lt_succ hlt)

/-- A header takes the pairs up to the next one. -/
theorem ReadsAs.header {name : String} (hname : IsBareName name)
    (h : ReadsAs rest pairs sections) :
    ReadsAs ('[' :: (name.toList ++ ']' :: '\n' :: rest)) []
      (⟨⟨[], name, false⟩, pairs⟩ :: sections)
  | 0, hlt => absurd hlt (Nat.not_lt_zero _)
  | fuel + 1, hlt => by
    have hrest : rest.length < fuel := by
      simp only [List.length_cons, List.length_append] at hlt
      omega
    rw [statements?, skipBlanks_eq_self (by decide)]
    simp only [header?_name hname, Option.bind_eq_bind, Option.bind_some, h fuel hrest]
    rfl

/-- A line with a value comes before the pairs after it. -/
theorem ReadsAs.line {name : String} (hname : IsBareName name) {value : List Char} {item : Item}
    (hvalue : Spells value item) (h : ReadsAs rest pairs sections) :
    ReadsAs (name.toList ++ ' ' :: '=' :: ' ' :: (value ++ '\n' :: rest))
      (⟨[], name, item⟩ :: pairs) sections
  | 0, hlt => absurd hlt (Nat.not_lt_zero _)
  | fuel + 1, hlt => by
    have hrest : rest.length < fuel := by
      simp only [List.length_cons, List.length_append] at hlt
      omega
    have hpair := pair?_line hname hvalue rest
    rw [statements?, skipBlanks_name hname]
    obtain ⟨c, text, htext, hc⟩ := hname.exists_eq_cons
    have hnot : ∀ {mark : Char}, isBare mark = false → c ≠ mark := ne_of_isBare hc
    have hmark : ¬(c = '#' ∨ c = '\n' ∨ c = '\r') :=
      not_or.2 ⟨hnot (by decide), not_or.2 ⟨hnot (by decide), hnot (by decide)⟩⟩
    rw [htext, List.cons_append] at hpair ⊢
    split
    case h_1 heq => exact nomatch heq
    case h_2 heq => exact absurd (List.cons.inj heq).1 (hnot (by decide))
    case h_3 heq =>
      cases heq
      rw [if_neg hmark, hpair, Option.bind_eq_bind, Option.bind_some]
      dsimp only
      rw [h fuel hrest]
      rfl

/-! ## Documents -/

/-- A section whose names have no dots. -/
def plainSection (name : String) (members : Members) : Section :=
  ⟨⟨[], name, false⟩, members.map fun m => ⟨[], m.1, m.2⟩⟩

theorem get?_of_notMem {members : Members} {name : String} (h : name ∉ members.map Prod.fst) :
    members.get? name = none := by
  rw [Members.get?, List.lookup_eq_none_iff]
  intro m hm
  have hne : name ≠ m.1 := fun heq => h (heq ▸ List.mem_map_of_mem hm)
  simp [hne]

theorem add?_of_notMem {members : Members} {name : String} (h : name ∉ members.map Prod.fst)
    (item : Item) : members.add? name item = some (members ++ [(name, item)]) := by
  rw [Members.add?, get?_of_notMem h]
  rfl

/-- Of several names that differ, none stands before itself. -/
theorem notMem_of_nodup {α : Type} {start members : List (String × α)} {m : String × α}
    (h : ((start ++ m :: members).map Prod.fst).Nodup) : m.1 ∉ start.map Prod.fst := by
  rw [List.map_append, List.map_cons, List.nodup_middle, List.nodup_cons] at h
  exact fun hmem => h.1 (List.mem_append_left _ hmem)

/-- New names are put at the end of a table. -/
theorem putAll?_plain (start : Members) {members : Members}
    (h : ((start ++ members).map Prod.fst).Nodup) :
    start.putAll? (members.map fun m => ⟨[], m.1, m.2⟩) = some (start ++ members) := by
  induction members generalizing start with
  | nil =>
    rw [List.append_nil]
    rfl
  | cons m members ih =>
    have hput : start.put? m.1 m.2 [] = some (start ++ [m]) :=
      add?_of_notMem (notMem_of_nodup h) m.2
    have hstep : start.putAll? ((m :: members).map fun m => ⟨[], m.1, m.2⟩) =
        Members.putAll? (start ++ [m]) (members.map fun m => ⟨[], m.1, m.2⟩) := by
      rw [List.map_cons, Members.putAll?, List.foldlM_cons, hput]
      rfl
    rw [List.append_cons] at h ⊢
    rw [hstep, ih _ h]

/-- The table of a section. -/
def tableOf (s : String × Members) : String × Item := (s.1, .table .header s.2)

/-- A section with a new name makes a table at the end of the document. -/
theorem addTo?_plain {document : Members} {s : String × Members}
    (hname : s.1 ∉ document.map Prod.fst) (hmembers : (s.2.map Prod.fst).Nodup) :
    (plainSection s.1 s.2).addTo? document = some (document ++ [tableOf s]) := by
  have hopen : document.open? s.1 = some ([], document) := by
    rw [Members.open?, get?_of_notMem hname]
  have hput : Members.putAll? [] (s.2.map fun m => ⟨[], m.1, m.2⟩) = some s.2 :=
    putAll?_plain [] hmembers
  have hadd : document.add? s.1 (.table .header s.2) = some (document ++ [tableOf s]) :=
    add?_of_notMem hname _
  rw [Section.addTo?, plainSection, Members.modify?, if_neg Bool.false_ne_true, hopen,
    Option.bind_eq_bind, Option.bind_some]
  dsimp only
  rw [hput, Option.bind_eq_bind, Option.bind_some, hadd]

/-- Sections with different names make a table each, after those that are there. -/
theorem foldlM_addTo?_plain (start : List (String × Members)) {sections : List (String × Members)}
    (hnames : ((start ++ sections).map Prod.fst).Nodup)
    (hmembers : ∀ s ∈ sections, (s.2.map Prod.fst).Nodup) :
    (sections.map fun s => plainSection s.1 s.2).foldlM (fun document s => s.addTo? document)
      (start.map tableOf) = some ((start ++ sections).map tableOf) := by
  induction sections generalizing start with
  | nil =>
    rw [List.append_nil]
    rfl
  | cons s sections ih =>
    have hnew : s.1 ∉ (start.map tableOf).map Prod.fst := by
      rw [List.map_map]
      exact notMem_of_nodup hnames
    have hadd := addTo?_plain hnew (hmembers s List.mem_cons_self)
    rw [← List.map_singleton, ← List.map_append] at hadd
    rw [List.append_cons start s sections] at hnames ⊢
    rw [List.map_cons, List.foldlM_cons, hadd, Option.bind_eq_bind, Option.bind_some]
    exact ih _ hnames fun s hs => hmembers s (List.mem_cons_of_mem _ hs)

/-- So do all sections of a document. -/
theorem document?_plain {sections : List (String × Members)}
    (hnames : (sections.map Prod.fst).Nodup)
    (hmembers : ∀ s ∈ sections, (s.2.map Prod.fst).Nodup) :
    document? [] (sections.map fun s => plainSection s.1 s.2) = some (sections.map tableOf) :=
  foldlM_addTo?_plain [] hnames hmembers

end SecureInbox.Toml
