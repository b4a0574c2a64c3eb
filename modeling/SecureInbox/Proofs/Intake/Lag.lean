import Mathlib.Algebra.Group.Nat.Defs
import Mathlib.Data.List.DropRight
import Mathlib.Order.Bounds.Basic
import SecureInbox.Proofs.Intake.Feed

/-!
# Falling behind a feed

A reader that subscribes to a feed starts after all that was published so far. If it
reads only when more has been published than the feed keeps, it has fallen behind. Then
it is told once how many events are gone and goes on with the oldest one that is kept,
where it is not behind any more (`Feed.drain_of_lt`).

* `Feed.reads_iff`: reading over and over comes to an end, at the end of the feed;
* `Feed.isLeast_roundUp`: how many events a feed keeps;
* `Feed.drainsAccurately`: whatever was published since it subscribed, a reader is given
  the latest events that are kept, and the others are counted.
-/

namespace SecureInbox

namespace Feed

variable {α : Type} {f : Feed α} {position : Nat}

/-! ## Reading to the end -/

/-- Reading over and over from a position on until nothing is left: what is given, and
    the position at the end. -/
inductive Reads (f : Feed α) : Nat → List (Delivery α) → Nat → Prop
  | done {position : Nat} : f.receive? position = none → Reads f position [] position
  | next {position next last : Nat} {d : Delivery α} {ds : List (Delivery α)} :
      f.receive? position = some (d, next) → Reads f next ds last →
      Reads f position (d :: ds) last

theorem newest_le_of_receive?_eq_none (h : f.receive? position = none) : f.newest ≤ position := by
  unfold receive? at h
  split at h
  · exact nomatch h
  · exact List.getElem?_eq_none_iff.1 (Option.map_eq_none_iff.1 h)

/-- Every reading moves the reader on, so it gets to the end, and there is one way to it. -/
theorem reads_iff (h : position ≤ f.newest) {ds : List (Delivery α)} {last : Nat} :
    f.Reads position ds last ↔ ds = f.drain position ∧ last = f.newest := by
  constructor
  · intro hreads
    induction hreads with
    | done hnone =>
      have hend := newest_le_of_receive?_eq_none hnone
      exact ⟨(drain_of_receive?_eq_none hnone).symm, Nat.le_antisymm h hend⟩
    | next hsome _ ih =>
      obtain ⟨rfl, rfl⟩ := ih (receive?_progress hsome).2
      exact ⟨(drain_of_receive? hsome).symm, rfl⟩
  · rintro ⟨rfl, rfl⟩
    fun_induction f.drain position with
    | case1 position hnone =>
      rw [← Nat.le_antisymm h (newest_le_of_receive?_eq_none hnone)]
      exact .done hnone
    | case2 position d next hsome hprogress ih => exact .next hsome (ih hprogress.2)

/-! ## Falling behind -/

/-- Who has fallen behind is told so once and then given all that is kept. -/
theorem drain_of_lt (h : position < f.oldest) :
    f.drain position =
      .missed (f.oldest - position) :: (f.published.drop f.oldest).map .event := by
  rw [drain_of_receive? (if_pos h), drain_eq (Nat.le_refl _)]

/-- A feed keeps as many events as it was asked to, rounded up to a power of two. -/
theorem isLeast_roundUp (n : Nat) :
    IsLeast {k | (∃ e, k = 2 ^ e) ∧ max 1 n ≤ k} (roundUp n) := by
  by_cases hle : n ≤ 1
  · rw [roundUp, if_pos hle]
    refine ⟨⟨⟨0, rfl⟩, Nat.max_le.2 ⟨Nat.le_refl 1, hle⟩⟩, ?_⟩
    rintro k ⟨-, hk⟩
    exact (Nat.le_max_left 1 n).trans hk
  · have hround : roundUp n = 2 ^ ((n - 1).log2 + 1) := if_neg hle
    refine ⟨⟨⟨_, hround⟩, Nat.max_le.2 ⟨?_, le_roundUp n⟩⟩, ?_⟩
    · exact hround ▸ Nat.one_le_two_pow
    · -- a smaller power of two is not above `n - 1`
      rintro _ ⟨⟨e, rfl⟩, hk⟩
      have hlt : n - 1 < 2 ^ e := by
        have hn := (Nat.le_max_right 1 n).trans hk
        omega
      have hlog : (n - 1).log2 < e := (Nat.log2_lt (by omega)).2 hlt
      exact hround ▸ Nat.pow_le_pow_right Nat.two_pos hlog

/-! ## What a subscriber is given -/

variable {f' : Feed α} {events : List α}

/-- A reader is given all that was published since it subscribed, if that is kept. -/
theorem drain_newest_of_le (h : f'.published = f.published ++ events)
    (hle : events.length ≤ f'.capacity) : f'.drain f.newest = events.map .event := by
  have hkept : f'.oldest ≤ f.newest := by
    rw [oldest, newest, h, List.length_append]
    omega
  rw [drain_eq hkept, h, newest, List.drop_left]

/-- A reader has missed what is not kept of the events since it subscribed. What was
    published before that does not matter. -/
theorem drain_newest_of_lt (h : f'.published = f.published ++ events)
    (hlt : f'.capacity < events.length) :
    f'.drain f.newest =
      .missed (events.length - f'.capacity) :: (events.rtake f'.capacity).map .event := by
  have holdest : f'.oldest = f.newest + (events.length - f'.capacity) := by
    rw [oldest, newest, h, List.length_append]
    omega
  rw [drain_of_lt (by omega), holdest, Nat.add_sub_cancel_left, h, newest, ← List.drop_drop,
    List.drop_left, List.rtake]

/-- A reader that subscribed to the feed `f` is given the latest of the `events` published
    since, when it reads from the feed as it is then. -/
structure DrainsLatest (f f' : Feed α) (events : List α) : Prop where
  /-- Reading comes to an end, and there is one way to it. -/
  reads_iff : ∀ ds last,
    f'.Reads f.newest ds last ↔ ds = f'.drain f.newest ∧ last = f'.newest
  events_eq : Delivery.events (f'.drain f.newest) =
    events.rtake (min events.length f'.capacity)
  missedCount_eq : Delivery.missedCount (f'.drain f.newest) =
    events.length - min events.length f'.capacity
  accounted : (Delivery.events (f'.drain f.newest)).length +
    Delivery.missedCount (f'.drain f.newest) = events.length

theorem drainsLatest (h : f'.published = f.published ++ events) : DrainsLatest f f' events := by
  have hle : f.newest ≤ f'.newest := by
    rw [newest, newest, h, List.length_append]
    exact Nat.le_add_right _ _
  -- one who has not fallen behind gets all, and another is told what it has missed
  have hgiven : Delivery.events (f'.drain f.newest) =
      events.rtake (min events.length f'.capacity) ∧
        Delivery.missedCount (f'.drain f.newest) =
          events.length - min events.length f'.capacity := by
    rcases Nat.lt_or_ge f'.capacity events.length with hlost | hkept
    · rw [drain_newest_of_lt h hlost, Nat.min_eq_right (Nat.le_of_lt hlost)]
      exact ⟨Delivery.events_map_event _,
        congrArg (events.length - f'.capacity + ·) (Delivery.missedCount_map_event _)⟩
    · rw [drain_newest_of_le h hkept, Nat.min_eq_left hkept, List.rtake, Nat.sub_self]
      exact ⟨Delivery.events_map_event events, Delivery.missedCount_map_event events⟩
  obtain ⟨hevents, hmissed⟩ := hgiven
  refine ⟨fun _ _ => reads_iff hle, hevents, hmissed, ?_⟩
  rw [hevents, hmissed, List.rtake, List.length_drop]
  omega

/-- Whatever is published before and after a reader subscribes, it is given the latest
    events that are kept and told how many others there were. A feed keeps as many as it
    was asked to, rounded up to a power of two. -/
theorem drainsAccurately (c : Nat) (before events : List α) :
    let f := before.foldl publish (ofCapacity c)
    let f' := events.foldl publish f
    IsLeast {k | (∃ e, k = 2 ^ e) ∧ max 1 c ≤ k} f'.capacity ∧ DrainsLatest f f' events := by
  intro f f'
  have hf' : f' = { f with published := f.published ++ events } := foldl_publish f events
  have hcapacity : f'.capacity = roundUp c := by
    rw [hf', show f = _ from foldl_publish (ofCapacity c) before]
    rfl
  exact ⟨hcapacity ▸ isLeast_roundUp c, drainsLatest (by rw [hf'])⟩

/-- Of five events, a feed that was asked to keep three keeps four. -/
example : ([1, 2, 3, 4, 5].foldl publish (ofCapacity 3)).drain 0 =
    [.missed 1, .event 2, .event 3, .event 4, .event 5] := by cbv

end Feed

end SecureInbox
