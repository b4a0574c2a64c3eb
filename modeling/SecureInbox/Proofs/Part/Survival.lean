import SecureInbox.Proofs.Part.Eviction
import SecureInbox.Proofs.Part.Provenance

/-!
# Survival of partials

A partial that was opened stays in the buffer unless there is a reason for it to go
(`Loses`): a later call gave its message back, or started it over with a part that is not
of the same message, or came when it had reached the limit of age, or as many partials as
there is room for were opened for other keys since.

Every partial in the buffer was opened by a call that can be told by its time
(`History.exists_isOpenedAt`), as the clock goes forward with every call. So there is only
one that is the oldest (`History.eq_after`), and partials that are younger than another one
were opened at later calls: when a full buffer drops its oldest, those that are left in it
are the reason (`History.held_or_loses_concat`).
-/

namespace SecureInbox

/-- The call `c` at position `i` offers the part `p` under the key, and no partial will
    take it, so that one is opened. -/
structure OpensAt (limits : Limits) (calls : List Call) (i : Nat) (c : Call) (p : Part)
    (key : String × UInt8) : Prop where
  call : calls[i]? = some c
  part? : c.message.part? = some p
  key_eq : key = (c.message.sender, p.identifier)
  opens : ∃ buffer, History limits (calls.take i) buffer ∧
    buffer.opens limits c.time c.message = true

/-- The partial that the call `c` opened for the key is in the buffer. -/
def IsHeld (buffer : Buffer) (key : String × UInt8) (c : Call) : Prop :=
  ∃ q ∈ buffer, q.key = key ∧ q.opened = c.time

/-- Why a partial may be gone that `p` opened for the key with the call `c` at position
    `i`. -/
inductive Loses (limits : Limits) (calls : List Call) (i : Nat) (c : Call) (p : Part)
    (key : String × UInt8) : Prop
  | released {k : Nat} {p' : Part} {m : Message} : i < k → ReleasesAt calls k p' m →
      (m.sender, p'.identifier) = key → Loses limits calls i c p key
  | restarted {k : Nat} {c' : Call} {p' : Part} : i < k → OpensAt limits calls k c' p' key →
      (p'.lead ≠ p.lead ∨ p'.version ≠ p.version ∨ p'.count ≠ p.count) →
      Loses limits calls i c p key
  | expired {k : Nat} {c' : Call} : i < k → calls[k]? = some c' →
      c.time + limits.expiry.nanoseconds ≤ c'.time → Loses limits calls i c p key
  /-- There is room for no more partials than were opened for other keys. -/
  | crowded {keys : List (String × UInt8)} : keys.Nodup → limits.room ≤ keys.length → key ∉ keys →
      (∀ key' ∈ keys, ∃ k c' p', i < k ∧ OpensAt limits calls k c' p' key') →
      Loses limits calls i c p key

/-- The partial was opened by the call `c` at position `k` with the part `p`, and it still
    takes such parts. -/
structure Partial.IsOpenedAt (q : Partial) (limits : Limits) (calls : List Call) (k : Nat)
    (c : Call) (p : Part) : Prop where
  opensAt : OpensAt limits calls k c p q.key
  opened_eq : q.opened = c.time
  accepts : q.accepts p = true

variable {limits : Limits} {calls : List Call} {buffer buffer' : Buffer} {i k : Nat}
  {c d last : Call} {p : Part} {q : Partial} {key : String × UInt8}

/-! ## Longer histories -/

theorem getElem?_append_of_some (h : calls[i]? = some c) (calls' : List Call) :
    (calls ++ calls')[i]? = some c :=
  (List.getElem?_append_left (List.getElem?_eq_some_iff.1 h).1).trans h

theorem take_append_of_some (h : calls[i]? = some c) (calls' : List Call) :
    (calls ++ calls').take i = calls.take i :=
  List.take_append_of_le_length (Nat.le_of_lt (List.getElem?_eq_some_iff.1 h).1)

theorem OpensAt.append (h : OpensAt limits calls i c p key) (calls' : List Call) :
    OpensAt limits (calls ++ calls') i c p key where
  call := getElem?_append_of_some h.call calls'
  part? := h.part?
  key_eq := h.key_eq
  opens := by
    rw [take_append_of_some h.call]
    exact h.opens

theorem OpensAt.of_append {calls' : List Call} (h : OpensAt limits (calls ++ calls') i c p key)
    (hlt : i < calls.length) : OpensAt limits calls i c p key where
  call := by
    rw [← List.getElem?_append_left hlt]
    exact h.call
  part? := h.part?
  key_eq := h.key_eq
  opens := by
    rw [← List.take_append_of_le_length (Nat.le_of_lt hlt)]
    exact h.opens

theorem Loses.append (h : Loses limits calls i c p key) (calls' : List Call) :
    Loses limits (calls ++ calls') i c p key := by
  cases h with
  | released hlt hr hkey =>
    obtain ⟨d, hd, hp, hanswer⟩ := hr
    exact .released hlt ⟨d, getElem?_append_of_some hd calls', hp, hanswer⟩ hkey
  | restarted hlt hopens hdiffers => exact .restarted hlt (hopens.append calls') hdiffers
  | expired hlt hcall hle => exact .expired hlt (getElem?_append_of_some hcall calls') hle
  | crowded hnodup hroom hkey hopens =>
    refine .crowded hnodup hroom hkey fun key' hkey' => ?_
    obtain ⟨k, c', p', hlt, hopens⟩ := hopens key' hkey'
    exact ⟨k, c', p', hlt, hopens.append calls'⟩

theorem Partial.IsOpenedAt.append (h : q.IsOpenedAt limits calls k c p) (calls' : List Call) :
    q.IsOpenedAt limits (calls ++ calls') k c p :=
  { h with opensAt := h.opensAt.append calls' }

theorem Partial.IsOpenedAt.fill (h : q.IsOpenedAt limits calls k c p) (m : Message) (p' : Part) :
    (q.fill m p').IsOpenedAt limits calls k c p where
  opensAt := h.opensAt
  opened_eq := h.opened_eq
  accepts := by simpa [Partial.accepts, Partial.fill] using h.accepts

/-- On a clock that goes forward, calls are in the order of their times. -/
theorem lt_iff_time_lt (htimes : calls.Pairwise (·.time < ·.time)) (hi : calls[i]? = some c)
    (hk : calls[k]? = some d) : i < k ↔ c.time < d.time := by
  have hlater : ∀ {i k : Nat} {c d : Call}, calls[i]? = some c → calls[k]? = some d → i < k →
      c.time < d.time := by
    intro i k c d hi hk hlt
    obtain ⟨hi', rfl⟩ := List.getElem?_eq_some_iff.1 hi
    obtain ⟨hk', rfl⟩ := List.getElem?_eq_some_iff.1 hk
    exact List.pairwise_iff_getElem.1 htimes i k hi' hk' hlt
  refine ⟨hlater hi hk, fun hlt => ?_⟩
  rcases Nat.lt_trichotomy i k with hik | rfl | hki
  · exact hik
  · cases hi.symm.trans hk
    exact absurd hlt (Nat.lt_irrefl _)
  · exact absurd hlt (Nat.lt_asymm (hlater hk hi hki))

namespace History

/-! ## Where partials come from -/

/-- Every partial in the buffer was opened by one of the calls. -/
theorem exists_isOpenedAt (h : History limits calls buffer) :
    ∀ q ∈ buffer, ∃ k c p, q.IsOpenedAt limits calls k c p := by
  induction h with
  | nil => exact nofun
  | @snoc calls buffer buffer' last hcalls hanswers ih =>
    have hstays : ∀ q ∈ buffer, ∃ k c p, q.IsOpenedAt limits (calls ++ [last]) k c p := by
      intro q hq
      obtain ⟨k, c, p, h⟩ := ih q hq
      exact ⟨k, c, p, h.append [last]⟩
    generalize last.answer = answer at hanswers
    intro q' hq'
    cases hanswers with
    | passed => exact hstays q' hq'
    | @opened p _ hp hfind hrest =>
      rcases List.mem_append.1 hq' with hq' | hq'
      · exact hstays q' (Buffer.mem_of_mem_besides (hrest.sublist.subset hq')).1
      · cases List.mem_singleton.1 hq'
        refine ⟨calls.length, last, p, ⟨List.getElem?_concat_length, hp, rfl, buffer, ?_, ?_⟩,
          rfl, by simp [Partial.accepts, Partial.collecting]⟩
        · rwa [List.take_left]
        · exact (Buffer.opens_iff hp).2 hfind
    | @joined p q hp hfind =>
      rcases List.mem_append.1 hq' with hq' | hq'
      · exact hstays q' (Buffer.mem_of_mem_besides hq').1
      · cases List.mem_singleton.1 hq'
        obtain ⟨k, c, p', hopened⟩ :=
          hstays q (Buffer.mem_of_mem_expire (Buffer.mem_of_find? hfind)).1
        exact ⟨k, c, p', hopened.fill last.message p⟩
    | released => exact hstays q' (Buffer.mem_of_mem_besides hq').1

/-- The buffer stays tidy on a clock that goes forward. -/
theorem isTidy (h : History limits calls buffer) (htimes : calls.Pairwise (·.time < ·.time)) :
    buffer.IsTidy limits := by
  induction h with
  | nil => exact Buffer.isTidy_nil limits
  | @snoc calls buffer buffer' last hcalls hanswers ih =>
    obtain ⟨hbefore, -, hlast⟩ := List.pairwise_append.1 htimes
    refine (ih hbefore).of_answers (fun q hq => ?_) hanswers
    obtain ⟨k, c, p, hopened⟩ := hcalls.exists_isOpenedAt q hq
    rw [hopened.opened_eq]
    exact hlast c (List.mem_of_getElem? hopened.opensAt.call) last List.mem_cons_self

/-- Then there is nothing to choose: the buffer is the one that `Buffer.offer` leads to. -/
theorem eq_after (h : History limits calls buffer) (htimes : calls.Pairwise (·.time < ·.time)) :
    buffer = Buffer.after limits (calls.map fun c => ⟨c.time, c.message⟩) [] := by
  induction h with
  | nil => rfl
  | snoc hcalls hanswers ih =>
    have hbefore := (List.pairwise_append.1 htimes).1
    have hoffer := hanswers.offer_eq (hcalls.isTidy hbefore).nodup_opened
    rw [List.map_append, Buffer.after_append, ← ih hbefore]
    exact (congrArg Prod.snd hoffer).symm

theorem unique (h : History limits calls buffer) (h' : History limits calls buffer')
    (htimes : calls.Pairwise (·.time < ·.time)) : buffer = buffer' :=
  (h.eq_after htimes).trans (h'.eq_after htimes).symm

/-! ## Why they go -/

/-- A partial was opened by the call that it has the time of. -/
theorem isOpenedAt_of_mem (h : History limits calls buffer)
    (htimes : calls.Pairwise (·.time < ·.time)) (hopens : OpensAt limits calls i c p key)
    (hq : q ∈ buffer) (hopened : q.opened = c.time) : q.IsOpenedAt limits calls i c p := by
  obtain ⟨k, d, p', hq⟩ := h.exists_isOpenedAt q hq
  have htime : c.time = d.time := hopened.symm.trans hq.opened_eq
  obtain rfl : i = k := by
    have hlt := lt_iff_time_lt htimes hopens.call hq.opensAt.call
    have hgt := lt_iff_time_lt htimes hq.opensAt.call hopens.call
    omega
  cases hopens.call.symm.trans hq.opensAt.call
  cases hopens.part?.symm.trans hq.opensAt.part?
  exact hq

/-- The partial that the last call opened is in the buffer. -/
theorem isHeld_concat (h : History limits calls buffer)
    (htimes : calls.Pairwise (·.time < ·.time))
    (hanswers : Buffer.Answers limits last.time buffer last.message last.answer buffer')
    (hopens : OpensAt limits (calls ++ [last]) calls.length c p key) : IsHeld buffer' key c := by
  obtain ⟨hcall, hp, rfl, buffer₀, hbuffer₀, hopens⟩ := hopens
  cases hcall.symm.trans List.getElem?_concat_length
  rw [List.take_left] at hbuffer₀
  cases h.unique hbuffer₀ htimes
  have hoffer := hanswers.offer_eq (h.isTidy htimes).nodup_opened
  have hbuffer' : buffer' = _ :=
    (congrArg Prod.snd hoffer).symm.trans (Buffer.snd_offer_of_opens hp hopens)
  exact ⟨_, hbuffer' ▸ List.mem_append_right _ List.mem_cons_self, rfl, rfl⟩

/-- If one more call drops a partial, there is a reason. -/
theorem held_or_loses_concat (h : History limits (calls ++ [last]) buffer')
    (hcalls : History limits calls buffer)
    (hanswers : Buffer.Answers limits last.time buffer last.message last.answer buffer')
    (htimes : (calls ++ [last]).Pairwise (·.time < ·.time))
    (hopens : OpensAt limits calls i c p key) (hheld : IsHeld buffer key c) :
    IsHeld buffer' key c ∨ Loses limits (calls ++ [last]) i c p key := by
  obtain ⟨q, hq, rfl, hopened⟩ := hheld
  obtain ⟨hbefore, -, hlast⟩ := List.pairwise_append.1 htimes
  have hlater : c.time < last.time :=
    hlast c (List.mem_of_getElem? hopens.call) last List.mem_cons_self
  have hlt : i < calls.length := (List.getElem?_eq_some_iff.1 hopens.call).1
  have hcall : (calls ++ [last])[calls.length]? = some last := List.getElem?_concat_length
  cases (hcalls.isTidy hbefore).fate hq (hopened ▸ hlater) hanswers with
  | kept hq' hkey hopened' => exact .inl ⟨_, hq', hkey, hopened'.trans hopened⟩
  | expired hdead =>
    refine .inr (.expired hlt hcall ?_)
    simp only [Partial.isAlive, hopened, decide_eq_false_iff_not] at hdead
    omega
  | released hp hkey hanswer =>
    exact .inr (.released hlt ⟨last, hcall, hp, hanswer⟩ hkey)
  | restarted hp hkey hnone haccepts =>
    refine .inr (.restarted hlt ⟨hcall, hp, hkey, buffer, ?_, hnone⟩ ?_)
    · rwa [List.take_left]
    · exact Partial.differs_of_accepts
        (hcalls.isOpenedAt_of_mem hbefore hopens hq hopened).accepts haccepts
  | evicted hfull hyounger =>
    -- the partials that are there now are the crowd
    refine .inr (.crowded (h.isTidy htimes).nodup_key ?_ ?_ ?_)
    · rw [List.length_map, hfull]
    · intro hmem
      obtain ⟨q', hq', hkey⟩ := List.mem_map.1 hmem
      exact (hyounger q' hq').1 hkey
    · intro key' hkey'
      obtain ⟨q', hq', rfl⟩ := List.mem_map.1 hkey'
      obtain ⟨k, d, p', hq⟩ := h.exists_isOpenedAt q' hq'
      have hyoung := (hyounger q' hq').2
      rw [hopened, hq.opened_eq] at hyoung
      exact ⟨k, d, p', (lt_iff_time_lt htimes (hopens.append [last]).call hq.opensAt.call).2 hyoung,
        hq.opensAt⟩

/-- A partial that was opened is in the buffer, or there is a reason. -/
theorem held_or_loses (h : History limits calls buffer) (htimes : calls.Pairwise (·.time < ·.time))
    (hopens : OpensAt limits calls i c p key) :
    IsHeld buffer key c ∨ Loses limits calls i c p key := by
  induction h with
  | nil => exact nomatch hopens.call
  | @snoc calls buffer buffer' last hcalls hanswers ih =>
    have hbefore := (List.pairwise_append.1 htimes).1
    by_cases hlt : i < calls.length
    · have hopens' := hopens.of_append hlt
      rcases ih hbefore hopens' with hheld | hlost
      · exact (hcalls.snoc hanswers).held_or_loses_concat hcalls hanswers htimes hopens' hheld
      · exact .inr (hlost.append [last])
    · have hle := (List.getElem?_eq_some_iff.1 hopens.call).1
      rw [List.length_append, List.length_singleton] at hle
      obtain rfl : i = calls.length := by omega
      exact .inl (hcalls.isHeld_concat hbefore hanswers hopens)

end History

/-- No partial goes without a reason, and a new one takes the place of one other at
    most. -/
structure DropsSoundly (limits : Limits) (calls : List Call) (buffer : Buffer) : Prop where
  /-- After the last call, a partial that one of the calls opened is in the buffer, or a call
      since then is the reason that it is not. -/
  held_or_loses : ∀ {i c p key}, OpensAt limits calls i c p key →
    IsHeld buffer key c ∨ Loses limits calls i c p key
  /-- Where there is no room, a partial for a new key takes the place of the oldest one of
      those that are still alive, and the others stay as they are. -/
  offer_of_full : ∀ {now m p}, m.part? = some p →
    (buffer.expire limits now).find? m.sender p.identifier = none →
    (buffer.expire limits now).length = limits.room →
    ∃ oldest, Buffer.IsOldest oldest (buffer.expire limits now) ∧
      (buffer.offer limits now m).2 =
        (buffer.expire limits now).erase oldest ++ [Partial.collecting now ⟨m, p⟩ [⟨m, p⟩]]
  /-- The next call comes to the same whichever of the oldest partials go. -/
  offer_eq : ∀ {now m answer buffer'}, Buffer.Answers limits now buffer m answer buffer' →
    buffer.offer limits now m = (answer, buffer')
  /-- A partial that is started over takes the place of the one for its key, and all others
      that are still alive stay as they are. -/
  offer_of_changed : ∀ {now m p q}, m.part? = some p →
    (buffer.expire limits now).find? m.sender p.identifier = some q → q.accepts p = false →
    (buffer.offer limits now m).2 = (buffer.expire limits now).others m.sender p.identifier ++
      [Partial.collecting now ⟨m, p⟩ [⟨m, p⟩]]

namespace History

/-- On a clock that goes forward, partials survive unless there is a reason. -/
theorem dropsSoundly (h : History limits calls buffer) (htimes : calls.Pairwise (·.time < ·.time)) :
    DropsSoundly limits calls buffer where
  held_or_loses := h.held_or_loses htimes
  offer_of_full := (h.isTidy htimes).offer_of_full
  offer_eq hanswers := hanswers.offer_eq (h.isTidy htimes).nodup_opened
  offer_of_changed := (h.isTidy htimes).offer_of_changed

/-- Where there is room for one partial, the half of another sender drops the first one. -/
theorem dropsSoundly_crowd :
    ∃ calls buffer c p key, History { maxPending := 1 } calls buffer ∧
      (calls.Pairwise fun c c' => c.time < c'.time) ∧ OpensAt { maxPending := 1 } calls 0 c p key ∧
        ¬IsHeld buffer key c ∧ DropsSoundly { maxPending := 1 } calls buffer := by
  let limits : Limits := { maxPending := 1 }
  let bobs : Message := .plain "bob" (Part.half 0 20).encode 1
  have halice : (halfMessage 0 10).part? = some (Part.half 0 10) :=
    Message.part?_half (by decide) 10 _ _
  have hbob : bobs.part? = some (Part.half 0 20) := Message.part?_half (by decide) 20 _ _
  let q :=
    Partial.collecting 0 ⟨halfMessage 0 10, Part.half 0 10⟩ [⟨halfMessage 0 10, Part.half 0 10⟩]
  let q' := Partial.collecting 1 ⟨bobs, Part.half 0 20⟩ [⟨bobs, Part.half 0 20⟩]
  let first : Call := { time := 0, message := halfMessage 0 10, answer := .awaiting 7 1 2 }
  let last : Call := { time := 1, message := bobs, answer := .awaiting 7 1 2 }
  have hfirst : Buffer.offer limits 0 first.message [] = (first.answer, [q]) :=
    Buffer.offer_opened halice rfl
  have hlast : Buffer.offer limits 1 last.message [q] = (last.answer, [q']) :=
    Buffer.offer_opened hbob rfl
  have h : History limits ([] ++ [first] ++ [last]) [q'] := .offer (.offer .nil hfirst) hlast
  have htimes : ([] ++ [first] ++ [last]).Pairwise fun c c' : Call => c.time < c'.time := by
    simp [first, last]
  have hopens : OpensAt limits ([] ++ [first] ++ [last]) 0 first (Part.half 0 10) ("alice", 7) :=
    { call := rfl
      part? := halice
      key_eq := rfl
      opens := ⟨[], .nil, (Buffer.opens_iff halice).2 rfl⟩ }
  have hgone : ¬IsHeld [q'] ("alice", 7) first := by
    rintro ⟨q, hq, -, htime⟩
    cases List.mem_singleton.1 hq
    exact absurd htime Nat.one_ne_zero
  exact ⟨_, _, _, _, _, h, htimes, hopens, hgone, h.dropsSoundly htimes⟩

end History

end SecureInbox
