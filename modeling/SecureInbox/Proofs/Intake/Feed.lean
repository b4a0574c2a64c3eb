import SecureInbox.Intake.Feed

/-!
# Reading a feed

A reader who has not fallen behind the oldest event kept is given every event from its
position on, in order, and nothing else (`Feed.drain_eq`). A feed with room for all that
is published never gets ahead of a reader, so one who was there from the start misses
nothing (`Feed.drain_zero`), and the feed made for so many events has the room
(`Feed.le_roundUp`).
-/

namespace SecureInbox

namespace Feed

variable {α : Type} {f : Feed α} {position : Nat}

theorem le_roundUp (n : Nat) : n ≤ roundUp n := by
  unfold roundUp
  split
  · assumption
  · have hlt : n - 1 < Nat.pow 2 ((n - 1).log2 + 1) := Nat.lt_log2_self
    omega

theorem receive?_of_lt (hkept : f.oldest ≤ position) (h : position < f.published.length) :
    f.receive? position = some (.event f.published[position], position + 1) := by
  rw [receive?, if_neg (Nat.not_lt.2 hkept), List.getElem?_eq_getElem h, Option.map_some]

theorem receive?_of_le (hkept : f.oldest ≤ position) (h : f.published.length ≤ position) :
    f.receive? position = none := by
  rw [receive?, if_neg (Nat.not_lt.2 hkept), List.getElem?_eq_none h, Option.map_none]

theorem drain_of_receive? {d : Delivery α} {next : Nat}
    (h : f.receive? position = some (d, next)) : f.drain position = d :: f.drain next := by
  rw [drain]
  split
  · rename_i hnone
    cases hnone.symm.trans h
  · rename_i hsome
    cases hsome.symm.trans h
    rfl

theorem drain_of_receive?_eq_none (h : f.receive? position = none) : f.drain position = [] := by
  rw [drain]
  split
  · rfl
  · rename_i hsome
    cases hsome.symm.trans h

/-- Who has not fallen behind is given all there is from its position on. -/
theorem drain_eq (hkept : f.oldest ≤ position) :
    f.drain position = (f.published.drop position).map .event := by
  -- The reader goes on by one event at a time, up to the end.
  induction hleft : f.published.length - position generalizing position with
  | zero =>
    have hend : f.published.length ≤ position := Nat.sub_eq_zero_iff_le.1 hleft
    rw [drain_of_receive?_eq_none (receive?_of_le hkept hend), List.drop_of_length_le hend,
      List.map_nil]
  | succ left ih =>
    have hlt : position < f.published.length := by omega
    rw [drain_of_receive? (receive?_of_lt hkept hlt), ih (by omega) (by omega),
      List.drop_eq_getElem_cons hlt, List.map_cons]

/-- Who was there from the start is given everything, if there is room for it. -/
theorem drain_zero (h : f.published.length ≤ f.capacity) :
    f.drain 0 = f.published.map .event := by
  rw [drain_eq (Nat.le_of_eq (Nat.sub_eq_zero_of_le h)), List.drop_zero]

theorem foldl_publish (f : Feed α) (events : List α) :
    events.foldl publish f = { f with published := f.published ++ events } := by
  induction events generalizing f with
  | nil => simp
  | cons event events ih =>
    rw [List.foldl_cons, ih, publish, List.append_assoc, List.singleton_append]

end Feed

namespace Delivery

variable {α : Type} (events : List α)

@[simp]
theorem events_map_event : Delivery.events (events.map .event) = events := by
  rw [Delivery.events, List.filterMap_map]
  exact List.filterMap_some

@[simp]
theorem missedCount_map_event : missedCount (events.map .event) = 0 := by
  induction events with
  | nil => rfl
  | cons event events ih => exact ih

end Delivery

end SecureInbox
