import Mathlib.Data.List.Forall2
import Mathlib.Data.List.Nodup
import SecureInbox.Json.Reader

/-!
# Rearranged objects

The reader of a record finds its fields by their names. So it makes no difference to it
in which order the members of an object stand, nor that there are others with names it
does not know (`Rearranges`). This goes for the objects inside the fields as well: for
every field it is said what may be done to its value (`Change`).

* `Rearranges.exists_fields?`: the fields that are found in a rearranged object are those
  that were there, each changed as its field allows;
* `Rearranges.exists_tagged?`: the tag of a tagged record is found as it was, and the rest
  of the record is rearranged.
-/

namespace SecureInbox.Json

/-- What may be done to a value. -/
abbrev Change := Value → Value → Prop

/-- The fields of a record by name, with what may be done to the value of each. -/
abbrev Fields := List (String × Change)

/-- The member is one of a field and changed as that field allows. -/
def Fields.Allows (fields : Fields) (m m' : String × Value) : Prop :=
  m'.1 = m.1 ∧ ∃ change, (m.1, change) ∈ fields ∧ change m.2 m'.2

/-- The members of an object are changed as their fields allow and put into any order, and
    others are added whose names are those of no field. -/
inductive Rearranges (fields : Fields) : Change
  | object {members kept added members' : List (String × Value)} :
      List.Forall₂ fields.Allows members kept → (∀ m ∈ added, m.1 ∉ fields.map Prod.fst) →
      members'.Perm (kept ++ added) → Rearranges fields (.object members) (.object members')

/-- The value of the only member of an object is changed. The object gets no other member,
    because its name would be taken for that of the alternative. -/
inductive Wraps (change : Change) : Change
  | object {name : String} {v w : Value} : change v w →
      Wraps change (.object [(name, v)]) (.object [(name, w)])

variable {fields fs : Fields} {members members' kept added : List (String × Value)}
  {name : String} {change : Change} {v w : Value}

/-- Doing nothing to a record rearranges it, if nothing may be done to each of its fields. -/
theorem rearranges_self
    (h : ∀ m ∈ members, ∃ change, (m.1, change) ∈ fields ∧ change m.2 m.2) :
    Rearranges fields (.object members) (.object members) := by
  have hkept : List.Forall₂ fields.Allows members members :=
    List.forall₂_same.2 fun m hm => ⟨rfl, h m hm⟩
  have hperm : members.Perm (members ++ []) := by rw [List.append_nil]
  exact .object hkept (List.forall_mem_nil _) hperm

/-! ## Members -/

/-- The order of members does not matter: there is only one order for a single member with the
    name, and two of them are refused in either. -/
theorem member?_perm (h : members.Perm members') (name : String) :
    member? name members = member? name members' := by
  have hfilter := h.filter fun m => m.1 == name
  unfold member?
  generalize members.filter (fun m => m.1 == name) = found at hfilter
  generalize members'.filter (fun m => m.1 == name) = found' at hfilter
  match found, found' with
  | [], found' => rw [List.nil_perm.1 hfilter]
  | [m], found' => rw [List.singleton_perm.1 hfilter]
  | _ :: _ :: _, [] => exact nomatch hfilter.length_eq
  | _ :: _ :: _, [_] => exact nomatch Nat.succ.inj hfilter.length_eq
  | _ :: _ :: _, _ :: _ :: _ => rfl

/-- Members with other names are passed over. -/
theorem member?_append_of_ne (h : ∀ m ∈ added, m.1 ≠ name) :
    member? name (kept ++ added) = member? name kept := by
  have hnone : added.filter (fun m => m.1 == name) = [] :=
    List.filter_eq_nil_iff.2 fun m hm => by simpa using h m hm
  rw [member?, List.filter_append, hnone, List.append_nil, member?]

/-- What is found under a name after the change. -/
theorem Fields.exists_member?_of_forall₂ (hnodup : (fields.map Prod.fst).Nodup)
    (hmem : (name, change) ∈ fields) (h : List.Forall₂ fields.Allows members kept)
    {found : Option Value} (hfound : member? name members = some found) :
    ∃ found', member? name kept = some found' ∧ Option.Rel change found found' := by
  have hfilter : List.Forall₂ fields.Allows (members.filter fun m => m.1 == name)
      (kept.filter fun m => m.1 == name) :=
    List.rel_filter (fun m m' hallows => by
      show (m.1 == name) = true ↔ (m'.1 == name) = true
      rw [hallows.1]) h
  unfold member? at hfound ⊢
  generalize hmembers : members.filter (fun m => m.1 == name) = l at hfilter hfound
  generalize kept.filter (fun m => m.1 == name) = l' at hfilter
  match hfilter with
  | .nil =>
    cases hfound
    exact ⟨none, rfl, .none⟩
  | .cons (a := m) (b := m') ⟨_, change', hmem', hchange⟩ .nil =>
    cases hfound
    -- the names of fields are distinct, so the member is one of this field
    have hm : m ∈ members.filter fun m => m.1 == name := hmembers ▸ List.mem_singleton_self m
    have hname : m.1 = name := by simpa using (List.mem_filter.1 hm).2
    obtain rfl : change' = change :=
      congrArg Prod.snd (List.inj_on_of_nodup_map hnodup hmem' hmem hname)
    exact ⟨some m'.2, rfl, .some hchange⟩
  | .cons _ (.cons _ _) => exact nomatch hfound

theorem Rearranges.exists_member? (h : Rearranges fields (.object members) (.object members'))
    (hnodup : (fields.map Prod.fst).Nodup) (hmem : (name, change) ∈ fields)
    {found : Option Value} (hfound : member? name members = some found) :
    ∃ found', member? name members' = some found' ∧ Option.Rel change found found' := by
  cases h with
  | @object _ kept added _ hkept hadded hperm =>
    have hne : ∀ m ∈ added, m.1 ≠ name := fun m hm heq =>
      hadded m hm (heq ▸ List.mem_map_of_mem hmem)
    rw [member?_perm hperm, member?_append_of_ne hne]
    exact Fields.exists_member?_of_forall₂ hnodup hmem hkept hfound

/-! ## Fields -/

/-- What is found for each field, before and after. -/
inductive Fields.Relates : Fields → List (Option Value) → List (Option Value) → Prop
  | nil : Relates [] [] []
  | cons {name : String} {change : Change} {fs : Fields} {found found' : Option Value}
      {rest rest' : List (Option Value)} : Option.Rel change found found' →
      Relates fs rest rest' → Relates ((name, change) :: fs) (found :: rest) (found' :: rest')

theorem Rearranges.exists_mapM_member?
    (h : Rearranges fields (.object members) (.object members'))
    (hnodup : (fields.map Prod.fst).Nodup) (hfs : fs ⊆ fields) {found : List (Option Value)}
    (hfound : (fs.map Prod.fst).mapM (member? · members) = some found) :
    ∃ found', (fs.map Prod.fst).mapM (member? · members') = some found' ∧
      fs.Relates found found' := by
  induction fs generalizing found with
  | nil =>
    cases hfound
    exact ⟨[], rfl, .nil⟩
  | cons field fs ih =>
    obtain ⟨hmem, hfs⟩ := List.cons_subset.1 hfs
    simp only [List.map_cons, List.mapM_cons, Option.bind_eq_bind, Option.bind_eq_some_iff,
      Option.pure_def, Option.some.injEq] at hfound ⊢
    obtain ⟨first, hfirst, rest, hrest, rfl⟩ := hfound
    obtain ⟨first', hfirst', hrel⟩ := h.exists_member? hnodup hmem hfirst
    obtain ⟨rest', hrest', hrelates⟩ := ih hfs hrest
    exact ⟨first' :: rest', ⟨first', hfirst', rest', hrest', rfl⟩, .cons hrel hrelates⟩

/-- The fields of a rearranged object are found, each changed as it may be. -/
theorem Rearranges.exists_fields? (h : Rearranges fields v w) (names : List String) (least : Nat)
    (found : List (Option Value)) (hnames : fields.map Prod.fst = names) (hnodup : names.Nodup)
    (hfound : v.fields? names least = some found) :
    ∃ found', w.fields? names least = some found' ∧ fields.Relates found found' := by
  subst hnames
  cases h with
  | object hkept hadded hperm =>
    exact exists_mapM_member? (.object hkept hadded hperm) hnodup (List.Subset.refl _) hfound

/-! ## Tagged records -/

/-- The changes keep the names. -/
theorem Fields.map_fst_of_forall₂ (h : List.Forall₂ fields.Allows members kept) :
    kept.map Prod.fst = members.map Prod.fst := by
  induction h with
  | nil => rfl
  | cons hallows _ ih => rw [List.map_cons, List.map_cons, hallows.1, ih]

/-- A field that no member is of makes no difference. -/
theorem Fields.forall₂_of_cons (hname : name ∉ members.map Prod.fst)
    (h : List.Forall₂ (Fields.Allows ((name, change) :: fields)) members kept) :
    List.Forall₂ fields.Allows members kept := by
  induction h with
  | nil => exact .nil
  | cons hallows _ ih =>
    obtain ⟨hne, hname⟩ := not_or.1 (mt List.mem_cons.2 hname)
    obtain ⟨heq, change, hmem, hchange⟩ := hallows
    have hmem := (List.mem_cons.1 hmem).resolve_left fun h => hne (congrArg Prod.fst h).symm
    exact .cons ⟨heq, change, hmem, hchange⟩ (ih hname)

/-- The tag of a rearranged record is found as it was, and the rest is rearranged. -/
theorem Rearranges.exists_tagged? {tag : String}
    (h : Rearranges ((tag, Eq) :: fields) (.object ((tag, v) :: members)) w)
    (hfields : tag ∉ fields.map Prod.fst) (hmembers : tag ∉ members.map Prod.fst) :
    ∃ rest, w.tagged? tag = some (v, rest) ∧ Rearranges fields (.object members) rest := by
  cases h with
  | @object _ _ added members' hkept hadded hperm =>
  cases hkept with
  | @cons _ m' _ kept hfirst hkept =>
  obtain ⟨hname, change, hchange, hv⟩ := hfirst
  obtain rfl : change = Eq := by
    rcases List.mem_cons.1 hchange with heq | hmem
    · exact congrArg Prod.snd heq
    · exact absurd (List.mem_map_of_mem hmem) hfields
  obtain rfl : m' = (tag, v) := Prod.ext hname hv.symm
  -- besides the tag itself, no member has its name
  have hne : ∀ m ∈ kept ++ added, m.1 ≠ tag := by
    intro m hm heq
    rcases List.mem_append.1 hm with hm | hm
    · exact hmembers (Fields.map_fst_of_forall₂ hkept ▸ heq ▸ List.mem_map_of_mem hm)
    · exact hadded m hm (heq ▸ List.mem_cons_self)
  have htag : member? tag members' = some (some v) := by
    rw [member?_perm hperm, List.cons_append, ← List.singleton_append, member?_append_of_ne hne]
    simp [member?]
  have hrest : (members'.filter fun m => m.1 != tag).Perm (kept ++ added) := by
    have hkeep : (kept ++ added).filter (fun m => m.1 != tag) = kept ++ added :=
      List.filter_eq_self.2 fun m hm => by simpa using hne m hm
    have hfilter := hperm.filter fun m => m.1 != tag
    rwa [List.cons_append, List.filter_cons_of_neg (by simp), hkeep] at hfilter
  refine ⟨.object (members'.filter fun m => m.1 != tag), by rw [Value.tagged?, htag], ?_⟩
  exact .object (Fields.forall₂_of_cons hmembers hkept)
    (fun m hm hmem => hadded m hm (List.mem_cons_of_mem _ hmem)) hrest

end SecureInbox.Json
