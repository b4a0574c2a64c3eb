/-!
# Tables

A finite table from names to values, as the list of its entries. A name that is
set again keeps its place.

* `Table.get?_set`: setting a name changes what is found under it and under no
  other;
* `Table.mem_of_get?`, `Table.get?_of_mem`: what is found are the entries, when no name has
  two;
* `Table.get?_getOrSet`: what is got or else set is found from then on.
-/

namespace SecureInbox

/-- A table from names to values. -/
abbrev Table (α : Type) := List (String × α)

namespace Table

variable {α : Type} {t : Table α} {name : String} {value : α}

/-- The value under a name. -/
def get? : Table α → String → Option α
  | [], _ => none
  | (k, v) :: rest, name => if k = name then some v else get? rest name

/-- The table with a value put under a name. -/
def set : Table α → String → α → Table α
  | [], name, value => [(name, value)]
  | (k, v) :: rest, name, value =>
    if k = name then (k, value) :: rest else (k, v) :: set rest name value

/-- The value under a name. If there is none, this one is put there. -/
def getOrSet (t : Table α) (name : String) (value : α) : α × Table α :=
  match t.get? name with
  | some found => (found, t)
  | none => (value, t.set name value)

@[simp]
theorem get?_nil (name : String) : get? ([] : Table α) name = none := rfl

@[simp]
theorem get?_set (t : Table α) (name other : String) (value : α) :
    (t.set name value).get? other = if name = other then some value else t.get? other := by
  induction t with
  | nil => simp [set, get?]
  | cons entry rest ih =>
    obtain ⟨k, v⟩ := entry
    by_cases hk : k = name
    · subst hk
      by_cases ho : k = other <;> simp [set, get?, ho]
    · by_cases ho : k = other
      · subst ho
        simp [set, get?, hk, Ne.symm hk]
      · simp [set, get?, hk, ho, ih]

theorem mem_of_get? (h : t.get? name = some value) : (name, value) ∈ t := by
  induction t with
  | nil => exact nomatch h
  | cons entry rest ih =>
    obtain ⟨k, v⟩ := entry
    rw [get?] at h
    split at h
    · rename_i hk
      cases h
      exact hk ▸ List.mem_cons_self
    · exact List.mem_cons_of_mem _ (ih h)

theorem get?_of_mem (hkeys : (t.map Prod.fst).Nodup) (h : (name, value) ∈ t) :
    t.get? name = some value := by
  induction t with
  | nil => exact nomatch h
  | cons entry rest ih =>
    obtain ⟨k, v⟩ := entry
    rw [List.map_cons, List.nodup_cons] at hkeys
    rw [get?]
    rcases List.mem_cons.1 h with h | h
    · cases h
      exact if_pos rfl
    · -- the name is not that of the first entry, for that comes only once
      have hk : k ≠ name := by
        rintro rfl
        exact hkeys.1 (List.mem_map.2 ⟨_, h, rfl⟩)
      rw [if_neg hk, ih hkeys.2 h]

theorem set_of_get?_eq_none (h : t.get? name = none) :
    t.set name value = t ++ [(name, value)] := by
  induction t with
  | nil => rfl
  | cons entry rest ih =>
    obtain ⟨k, v⟩ := entry
    rw [get?] at h
    split at h
    · exact nomatch h
    · rename_i hk
      rw [set, if_neg hk, ih h, List.cons_append]

theorem getOrSet_of_get?_eq_some {found : α} (h : t.get? name = some found) :
    t.getOrSet name value = (found, t) := by
  rw [getOrSet, h]

theorem getOrSet_of_get?_eq_none (h : t.get? name = none) :
    t.getOrSet name value = (value, t ++ [(name, value)]) := by
  rw [getOrSet, h, ← set_of_get?_eq_none h]

theorem get?_getOrSet (t : Table α) (name other : String) (value : α) :
    (t.getOrSet name value).2.get? other =
      if name = other then some (t.getOrSet name value).1 else t.get? other := by
  rw [getOrSet]
  split
  · rename_i hfound
    split
    · rename_i hother
      exact hother ▸ hfound
    · rfl
  · exact get?_set t name other value

end Table

end SecureInbox
