import SecureInbox.Json.Reader

/-!
# Values that are held

The parts of a value that can be held as a whole can be held as well, each level of nesting
with less room by one. So a reader that holds only some field of a record never refuses a
value that can be held itself (`Value.isFieldHoldable_of_isHoldable`).
-/

namespace SecureInbox.Json

variable {room : Nat} {v : Value}

theorem Value.isHoldable_of_mem_members {members : List (String × Value)} {m : String × Value}
    (h : membersHoldable room members = true) (hm : m ∈ members) :
    m.2.isHoldable room = true := by
  induction members with
  | nil => exact absurd hm List.not_mem_nil
  | cons first rest ih =>
    rw [membersHoldable, Bool.and_eq_true] at h
    rcases List.mem_cons.1 hm with rfl | hm
    · exact h.1
    · exact ih h.2 hm

theorem Value.isHoldable_of_mem_items {items : List Value} (h : areHoldable room items = true)
    (hv : v ∈ items) : v.isHoldable room = true := by
  induction items with
  | nil => exact absurd hv List.not_mem_nil
  | cons first rest ih =>
    rw [areHoldable, Bool.and_eq_true] at h
    rcases List.mem_cons.1 hv with rfl | hv
    · exact h.1
    · exact ih h.2 hv

theorem mem_of_member?_eq_some {name : String} {members : List (String × Value)}
    (h : member? name members = some (some v)) : (name, v) ∈ members := by
  rw [member?] at h
  generalize hfilter : members.filter (fun m => m.1 == name) = found at h
  match found with
  | [(name', v')] =>
    obtain rfl : v' = v := by simpa using h
    have hmem : (name', v') ∈ members.filter fun m => m.1 == name := hfilter ▸ List.mem_cons_self
    have hname : name' = name := by simpa using (List.mem_filter.1 hmem).2
    exact hname ▸ (List.mem_filter.1 hmem).1
  | [] => exact nomatch h
  | _ :: _ :: _ => exact nomatch h

theorem exists_member?_of_mem_mapM {names : List String} {members : List (String × Value)}
    {found : List (Option Value)} (h : names.mapM (member? · members) = some found)
    {first : Option Value} (hfirst : first ∈ found) :
    ∃ name, member? name members = some first := by
  induction names generalizing found with
  | nil =>
    cases h
    exact absurd hfirst List.not_mem_nil
  | cons name names ih =>
    simp only [List.mapM_cons, Option.bind_eq_bind, Option.bind_eq_some_iff, Option.pure_def,
      Option.some.injEq] at h
    obtain ⟨_, hname, _, hnames, rfl⟩ := h
    rcases List.mem_cons.1 hfirst with rfl | hfirst
    · exact ⟨name, hname⟩
    · exact ih hnames hfirst

/-- The fields of a value that can be held can be held one level below. -/
theorem Value.isHoldable_of_mem_fields? {w : Value} (hw : w.isHoldable room = true)
    {names : List String} {least : Nat} {found : List (Option Value)}
    (hfound : w.fields? names least = some found) (hv : some v ∈ found) :
    v.isHoldable (room - 1) = true := by
  cases w with
  | object members =>
    obtain ⟨name, hname⟩ := exists_member?_of_mem_mapM hfound hv
    rw [isHoldable, Bool.and_eq_true] at hw
    exact isHoldable_of_mem_members hw.2 (mem_of_member?_eq_some hname)
  | array items =>
    rw [isHoldable, Bool.and_eq_true] at hw
    rw [fields?] at hfound
    split at hfound
    · cases hfound
      have hitem : v ∈ items := by simpa using hv
      exact isHoldable_of_mem_items hw.2 hitem
    · exact nomatch hfound
  | _ => exact nomatch hfound

theorem Value.isFieldHoldable_of_isHoldable {w : Value} (hw : w.isHoldable maxDepth = true)
    (names : List String) (least position : Nat) :
    w.isFieldHoldable names least position = true := by
  rw [isFieldHoldable]
  cases hfound : w.fields? names least with
  | none => rfl
  | some found =>
    cases hv : (found[position]?).join with
    | none => simp [hv]
    | some v =>
      have hmem : some v ∈ found := List.mem_of_getElem? (Option.join_eq_some_iff.1 hv)
      simpa [hv] using isHoldable_of_mem_fields? hw hfound hmem

end SecureInbox.Json
