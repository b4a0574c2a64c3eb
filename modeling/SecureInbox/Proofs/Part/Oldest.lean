import Mathlib.Data.Finset.Max
import Mathlib.Logic.Relation
import SecureInbox.Part.Buffer

/-!
# Dropping the oldest partials

Room is made one partial at a time, and the one that goes was opened no later than any
other (`Buffer.Evicts`). Where several were opened at the same time it may be any of them:
what is left when there is room (`Buffer.LeavesRoom`) depends on the choices. The first in
the buffer is one of them (`Buffer.leavesRoom_makeRoom`), and there is no choice if no two
partials were opened at the same time (`Buffer.LeavesRoom.eq_makeRoom`).

Whatever is chosen, there is room in the end (`Buffer.makesRoom`).
-/

namespace SecureInbox

namespace Buffer

variable {limits : Limits} {buffer buffer' rest : Buffer} {q oldest : Partial}

/-! ## The oldest partial -/

/-- The partial was opened before all others. -/
structure IsOldest (oldest : Partial) (buffer : Buffer) : Prop where
  mem : oldest ∈ buffer
  lt : ∀ q ∈ buffer, q ≠ oldest → oldest.opened < q.opened

/-- The partial that is dropped was opened no later than any other. -/
theorem exists_dropOldest (hne : buffer ≠ []) :
    ∃ oldest ∈ buffer, (∀ other ∈ buffer, oldest.opened ≤ other.opened) ∧
      buffer.dropOldest = buffer.erase oldest := by
  obtain ⟨q, hq⟩ := List.exists_mem_of_ne_nil buffer hne
  obtain ⟨oldest, holdest, hleast⟩ :=
    buffer.toFinset.exists_min_image (·.opened) ⟨q, List.mem_toFinset.2 hq⟩
  obtain ⟨x, before, after, hbefore, hx, hbuffer, hdrop⟩ :=
    List.exists_of_eraseP
      (p := fun q : Partial => buffer.all fun other => decide (q.opened ≤ other.opened))
      (List.mem_toFinset.1 holdest) (by simpa using hleast)
  refine ⟨x, by rw [hbuffer]; simp, by simpa using hx, ?_⟩
  -- the first of the oldest is also the first that is equal to it
  rw [dropOldest, hdrop, hbuffer, List.erase_append_right _ fun hmem => hbefore x hmem hx,
    List.erase_cons_head]

/-- Where no two partials were opened at the same time, there is only one that can be
    dropped. -/
theorem isOldest_of_forall_le (hnodup : (buffer.map (·.opened)).Nodup) (hmem : oldest ∈ buffer)
    (hleast : ∀ other ∈ buffer, oldest.opened ≤ other.opened) : IsOldest oldest buffer where
  mem := hmem
  lt q hq hne := by
    refine Nat.lt_of_le_of_ne (hleast q hq) fun heq => hne ?_
    exact List.inj_on_of_nodup_map hnodup hq hmem heq.symm

theorem IsOldest.unique (h : IsOldest oldest buffer) (h' : IsOldest q buffer) : q = oldest := by
  by_contra hne
  exact Nat.lt_asymm (h.lt q h'.mem hne) (h'.lt oldest h.mem (Ne.symm hne))

/-! ## One turn -/

/-- One turn of making room: where there is none, a partial is dropped that was opened no
    later than any other. -/
inductive Evicts (limits : Limits) : Buffer → Buffer → Prop
  | drop {buffer : Buffer} {q : Partial} : limits.room ≤ buffer.length → q ∈ buffer →
      (∀ other ∈ buffer, q.opened ≤ other.opened) → Evicts limits buffer (buffer.erase q)

theorem Evicts.length_succ (h : Evicts limits buffer buffer') :
    buffer'.length + 1 = buffer.length := by
  obtain ⟨-, hq, -⟩ := h
  have hpos := List.length_pos_of_mem hq
  rw [List.length_erase_of_mem hq]
  omega

theorem Evicts.sublist (h : Evicts limits buffer buffer') : buffer'.Sublist buffer := by
  cases h
  exact List.erase_sublist

/-- Dropping the first of the oldest partials is a turn. -/
theorem evicts_dropOldest (h : limits.room ≤ buffer.length) :
    Evicts limits buffer buffer.dropOldest := by
  have hne : buffer ≠ [] := by
    rintro rfl
    exact Nat.not_succ_le_zero 0 ((Nat.le_max_left 1 limits.maxPending).trans h)
  obtain ⟨oldest, hmem, hleast, hdrop⟩ := exists_dropOldest hne
  exact hdrop ▸ .drop h hmem hleast

/-- There is a turn as long as there is no room. -/
theorem exists_evicts_iff : (∃ buffer', Evicts limits buffer buffer') ↔
    limits.room ≤ buffer.length := by
  constructor
  · rintro ⟨_, ⟨h, -, -⟩⟩
    exact h
  · exact fun h => ⟨_, evicts_dropOldest h⟩

/-- Turns do not follow each other for ever. -/
theorem wellFounded_evicts (limits : Limits) :
    WellFounded fun buffer' buffer => Evicts limits buffer buffer' := by
  refine Subrelation.wf (fun {buffer' buffer} h => ?_) (measure List.length).wf
  have hlength := h.length_succ
  exact show buffer'.length < buffer.length by omega

/-- Where no two partials were opened at the same time, a turn drops the oldest one. -/
theorem Evicts.exists_isOldest (hnodup : (buffer.map (·.opened)).Nodup)
    (h : Evicts limits buffer buffer') :
    ∃ oldest, IsOldest oldest buffer ∧ buffer' = buffer.erase oldest := by
  obtain ⟨-, hmem, hleast⟩ := h
  exact ⟨_, isOldest_of_forall_le hnodup hmem hleast, rfl⟩

/-! ## All turns -/

/-- Turn after turn, the buffer has come to be one with room for one more partial. -/
structure LeavesRoom (limits : Limits) (buffer rest : Buffer) : Prop where
  run : Relation.ReflTransGen (Evicts limits) buffer rest
  length_lt : rest.length < limits.room

theorem LeavesRoom.sublist (h : buffer.LeavesRoom limits rest) : rest.Sublist buffer := by
  obtain ⟨hrun, -⟩ := h
  induction hrun with
  | refl => exact .refl _
  | tail _ hturn ih => exact hturn.sublist.trans ih

/-- Where there is room already, nothing is dropped. -/
theorem LeavesRoom.eq_self (h : buffer.LeavesRoom limits rest)
    (hroom : buffer.length < limits.room) : rest = buffer := by
  rcases Relation.ReflTransGen.cases_head h.run with heq | ⟨_, hturn, -⟩
  · exact heq.symm
  · exact absurd hroom (Nat.not_lt.2 (exists_evicts_iff.1 ⟨_, hturn⟩))

theorem makeRoom_eq_self (h : buffer.length < limits.room) : buffer.makeRoom limits = buffer := by
  have hnone : buffer.length + 1 - limits.room = 0 := by omega
  rw [makeRoom, hnone, dropOldestTimes]

theorem makeRoom_of_full (h : limits.room ≤ buffer.length) :
    buffer.makeRoom limits = buffer.dropOldest.makeRoom limits := by
  have hlength := (evicts_dropOldest h).length_succ
  have hturns : buffer.length + 1 - limits.room =
      (buffer.dropOldest.length + 1 - limits.room) + 1 := by omega
  rw [makeRoom, hturns, dropOldestTimes, makeRoom]

/-- The first of the oldest partials is one choice. -/
theorem leavesRoom_makeRoom (limits : Limits) (buffer : Buffer) :
    buffer.LeavesRoom limits (buffer.makeRoom limits) := by
  induction buffer using (wellFounded_evicts limits).induction with
  | _ buffer ih =>
    rcases Nat.lt_or_ge buffer.length limits.room with hlt | hfull
    · exact (makeRoom_eq_self hlt).symm ▸ ⟨.refl, hlt⟩
    · have hturn : Evicts limits buffer buffer.dropOldest := evicts_dropOldest hfull
      obtain ⟨hrun, hlength⟩ := ih _ hturn
      rw [makeRoom_of_full hfull]
      exact ⟨.head hturn hrun, hlength⟩

/-- Where no two partials were opened at the same time, there is no choice. -/
theorem LeavesRoom.eq_makeRoom (h : buffer.LeavesRoom limits rest)
    (hnodup : (buffer.map (·.opened)).Nodup) : rest = buffer.makeRoom limits := by
  obtain ⟨hrun, hlength⟩ := h
  induction hrun using Relation.ReflTransGen.head_induction_on with
  | refl => exact (makeRoom_eq_self hlength).symm
  | @head buffer buffer' hturn _ ih =>
    have hfull : limits.room ≤ buffer.length := exists_evicts_iff.1 ⟨_, hturn⟩
    obtain ⟨oldest, holdest, rfl⟩ := hturn.exists_isOldest hnodup
    -- the turn of `makeRoom` drops the same partial
    obtain ⟨oldest', holdest', hdrop⟩ := (evicts_dropOldest hfull).exists_isOldest hnodup
    rw [makeRoom_of_full hfull, hdrop, holdest.unique holdest']
    exact ih (hnodup.sublist (List.erase_sublist.map _))

/-- Making room is a loop that ends, and when it does there is room. -/
structure MakesRoom (limits : Limits) (buffer : Buffer) : Prop where
  acc : Acc (fun buffer' buffer => Evicts limits buffer buffer') buffer
  /-- As long as there is no room, one of the oldest partials can be dropped. -/
  stops_iff : ∀ b, Relation.ReflTransGen (Evicts limits) buffer b →
    ((∃ b', Evicts limits b b') ↔ limits.room ≤ b.length)
  leavesRoom : buffer.LeavesRoom limits (buffer.makeRoom limits)

theorem makesRoom (limits : Limits) (buffer : Buffer) : MakesRoom limits buffer where
  acc := (wellFounded_evicts limits).apply buffer
  stops_iff _ _ := exists_evicts_iff
  leavesRoom := leavesRoom_makeRoom limits buffer

end Buffer

end SecureInbox
