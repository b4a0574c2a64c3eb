import SecureInbox.Proofs.Part.Isolation

/-!
# Making room in a full buffer

No key occurs twice in the buffer, no two partials were opened at the same time, and
there are no more of them than there is room for (`Buffer.IsTidy`). Calls keep it that
way as long as the clock goes forward (`Buffer.IsTidy.of_answers`), so there is never room
to be made for more than one partial, and the one that is dropped is told by when it was
opened (`Buffer.IsTidy.leavesRoom_cases`).

What a call does to a partial of the buffer is one of five things (`Buffer.Fate`).
-/

namespace SecureInbox

/-- Parts that a partial tells apart differ in the lead, the version byte or the number of
    parts. -/
theorem Partial.differs_of_accepts {q : Partial} {p p' : Part} (h : q.accepts p = true)
    (h' : q.accepts p' = false) :
    p'.lead ≠ p.lead ∨ p'.version ≠ p.version ∨ p'.count ≠ p.count := by
  by_contra hsame
  push Not at hsame
  obtain ⟨hlead, hversion, hcount⟩ := hsame
  rw [accepts, hlead, hversion, hcount] at h'
  exact Bool.noConfusion (h'.symm.trans h)

namespace Buffer

variable {limits : Limits} {now : Nat} {m : Message} {p : Part} {buffer buffer' rest : Buffer}
  {answer : Release} {q oldest : Partial}

/-! ## Tidy buffers -/

/-- Every partial is told by its key, and by when it was opened, and there are no more of
    them than there is room for. -/
structure IsTidy (limits : Limits) (buffer : Buffer) : Prop where
  nodup_key : (buffer.map Partial.key).Nodup
  nodup_opened : (buffer.map (·.opened)).Nodup
  length_le : buffer.length ≤ limits.room

theorem isTidy_nil (limits : Limits) : IsTidy limits [] := ⟨.nil, .nil, Nat.zero_le _⟩

theorem IsTidy.sublist (h : buffer.IsTidy limits) (hsub : List.Sublist buffer' buffer) :
    IsTidy limits buffer' where
  nodup_key := h.nodup_key.sublist (hsub.map _)
  nodup_opened := h.nodup_opened.sublist (hsub.map _)
  length_le := hsub.length_le.trans h.length_le

theorem IsTidy.nodup (h : buffer.IsTidy limits) : buffer.Nodup := .of_map _ h.nodup_key

theorem IsTidy.besides (h : buffer.IsTidy limits) :
    (buffer.besides limits now m p).IsTidy limits :=
  h.sublist (besides_sublist limits now m p buffer)

/-- Room is made by dropping the oldest partial if the buffer is full: after one turn there
    is room. -/
theorem IsTidy.leavesRoom_cases (h : buffer.IsTidy limits) (hrest : buffer.LeavesRoom limits rest) :
    (buffer.length < limits.room ∧ rest = buffer) ∨
      (buffer.length = limits.room ∧ ∃ oldest, IsOldest oldest buffer ∧
        rest = buffer.erase oldest) := by
  rcases Nat.lt_or_eq_of_le h.length_le with hlt | hfull
  · exact .inl ⟨hlt, hrest.eq_self hlt⟩
  · refine .inr ⟨hfull, ?_⟩
    rcases Relation.ReflTransGen.cases_head hrest.run with rfl | ⟨buffer', hturn, hrun⟩
    · exact absurd hfull (Nat.ne_of_lt hrest.length_lt)
    · have hlength := hturn.length_succ
      have heq : rest = buffer' := LeavesRoom.eq_self ⟨hrun, hrest.length_lt⟩ (by omega)
      exact heq ▸ hturn.exists_isOldest h.nodup_opened

/-- Calls that come after all partials were opened keep the buffer tidy. -/
theorem IsTidy.of_answers (h : buffer.IsTidy limits) (hlater : ∀ q ∈ buffer, q.opened < now)
    (hanswers : Answers limits now buffer m answer buffer') : buffer'.IsTidy limits where
  nodup_key := hanswers.nodup_key h.nodup_key
  nodup_opened := by
    refine hanswers.nodup_map (fun _ _ _ => rfl) (fun p q hq => ?_) h.nodup_opened
    exact Nat.ne_of_lt (hlater q (mem_of_mem_besides hq).1)
  length_le := hanswers.length_le h.length_le

/-! ## Calls of a tidy buffer -/

/-- The buffer after a part that no partial would take. -/
theorem snd_offer_of_opens (hp : m.part? = some p) (h : buffer.opens limits now m = true) :
    (buffer.offer limits now m).2 = (buffer.besides limits now m p).makeRoom limits ++
      [Partial.collecting now ⟨m, p⟩ [⟨m, p⟩]] := by
  rw [offer_opened hp ((opens_iff hp).1 h), settle_opened hp]

/-- What a call does to the partial `q`. -/
inductive Fate (limits : Limits) (now : Nat) (m : Message) (buffer : Buffer) (q : Partial)
    (answer : Release) (buffer' : Buffer) : Prop
  /-- At most, the partial was filled. -/
  | kept {q' : Partial} : q' ∈ buffer' → q'.key = q.key → q'.opened = q.opened →
      Fate limits now m buffer q answer buffer'
  | expired : q.isAlive limits now = false → Fate limits now m buffer q answer buffer'
  | released {p : Part} {whole : Message} : m.part? = some p →
      (whole.sender, p.identifier) = q.key → answer = .complete whole →
      Fate limits now m buffer q answer buffer'
  | restarted {p : Part} : m.part? = some p → q.key = (m.sender, p.identifier) →
      buffer.opens limits now m = true → q.accepts p = false →
      Fate limits now m buffer q answer buffer'
  /-- The buffer is full of others, and all of those are younger. -/
  | evicted : buffer'.length = limits.room →
      (∀ q' ∈ buffer', q'.key ≠ q.key ∧ q.opened < q'.opened) →
      Fate limits now m buffer q answer buffer'

/-- A partial is found under its key. -/
theorem IsTidy.eq_of_find? (h : buffer.IsTidy limits) (hq : q ∈ buffer) {q' : Partial}
    (hkey : q.key = (m.sender, p.identifier))
    (hfind : (buffer.expire limits now).find? m.sender p.identifier = some q') : q' = q := by
  have hq' := (mem_of_mem_expire (mem_of_find? hfind)).1
  have hkey' := Partial.isFor_iff_key.1 (isFor_of_find? hfind)
  exact List.inj_on_of_nodup_map h.nodup_key hq' hq (hkey'.trans hkey.symm)

theorem exists_find?_expire (hq : q ∈ buffer) (halive : q.isAlive limits now = true)
    (hkey : q.key = (m.sender, p.identifier)) :
    ∃ q', (buffer.expire limits now).find? m.sender p.identifier = some q' := by
  refine Option.ne_none_iff_exists'.1 fun hnone => ?_
  have hfor := isFree_iff.1 hnone q (List.mem_filter.2 ⟨hq, halive⟩)
  exact Bool.noConfusion (hfor.symm.trans (Partial.isFor_iff_key.2 hkey))

/-- The oldest of the partials that are not for the new one makes room for it. -/
theorem IsTidy.fate_of_isOldest (h : buffer.IsTidy limits) (hlater : q.opened < now)
    (hkey : q.key ≠ (m.sender, p.identifier)) (hfull : buffer.length = limits.room)
    (holdest : IsOldest q buffer) :
    Fate limits now m buffer' q answer
      (buffer.erase q ++ [Partial.collecting now ⟨m, p⟩ [⟨m, p⟩]]) := by
  have hpos := List.length_pos_of_mem holdest.mem
  refine .evicted ?_ fun q' hq' => ?_
  · rw [List.length_append, List.length_erase_of_mem holdest.mem, List.length_singleton]
    omega
  · rcases List.mem_append.1 hq' with hq' | hq'
    · obtain ⟨hne, hq'⟩ := h.nodup.mem_erase_iff.1 hq'
      exact ⟨fun heq => hne (List.inj_on_of_nodup_map h.nodup_key hq' holdest.mem heq),
        holdest.lt q' hq' hne⟩
    · rw [List.mem_singleton.1 hq']
      exact ⟨hkey.symm, hlater⟩

theorem IsTidy.fate (h : buffer.IsTidy limits) (hq : q ∈ buffer) (hlater : q.opened < now)
    (hanswers : Answers limits now buffer m answer buffer') :
    Fate limits now m buffer q answer buffer' := by
  cases halive : q.isAlive limits now with
  | false => exact .expired halive
  | true =>
    -- A partial for another key is beside the part, where only making room can drop it.
    -- The one for the key of the part is the one that is found.
    cases hanswers with
    | passed => exact .kept hq rfl rfl
    | @opened p rest hp hfind hrest =>
      have hopens := (opens_iff hp).2 hfind
      by_cases hkey : q.key = (m.sender, p.identifier)
      · obtain ⟨q', hq'⟩ := exists_find?_expire hq halive hkey
        obtain rfl := h.eq_of_find? hq hkey hq'
        refine .restarted hp hkey hopens ?_
        rw [hq', Option.filter_eq_none_iff] at hfind
        exact Bool.eq_false_iff.2 (hfind q' rfl)
      · have hbesides := mem_besides hq halive hkey
        rcases h.besides.leavesRoom_cases hrest with ⟨-, heq⟩ | ⟨hfull, oldest, holdest, heq⟩
        · exact .kept (List.mem_append_left _ (heq.symm ▸ hbesides)) rfl rfl
        · rw [heq]
          by_cases hne : q = oldest
          · rw [← hne] at holdest ⊢
            exact h.besides.fate_of_isOldest hlater hkey hfull holdest
          · exact .kept (List.mem_append_left _ ((List.mem_erase_of_ne hne).2 hbesides)) rfl rfl
    | @joined p q' hp hfind =>
      by_cases hkey : q.key = (m.sender, p.identifier)
      · obtain rfl := h.eq_of_find? hq hkey hfind
        exact .kept (List.mem_append_right _ List.mem_cons_self) rfl rfl
      · exact .kept (List.mem_append_left _ (mem_besides hq halive hkey)) rfl rfl
    | @released p q' hp hfind =>
      by_cases hkey : q.key = (m.sender, p.identifier)
      · obtain rfl := h.eq_of_find? hq hkey hfind
        refine .released hp ?_ rfl
        exact Prod.ext rfl (congrArg Prod.snd hkey).symm
      · exact .kept (mem_besides hq halive hkey) rfl rfl

/-- A part that opens a partial for a new key takes the place of the oldest one in a full
    buffer, and no other partial that is still alive changes. -/
theorem IsTidy.offer_of_full (h : buffer.IsTidy limits) (hp : m.part? = some p)
    (hfree : (buffer.expire limits now).IsFree m.sender p.identifier)
    (hfull : (buffer.expire limits now).length = limits.room) :
    ∃ oldest, IsOldest oldest (buffer.expire limits now) ∧
      (buffer.offer limits now m).2 = (buffer.expire limits now).erase oldest ++
        [Partial.collecting now ⟨m, p⟩ [⟨m, p⟩]] := by
  have hopens : buffer.opens limits now m = true :=
    (opens_iff hp).2 (by rw [hfree, Option.filter_none])
  have hbesides : buffer.besides limits now m p = buffer.expire limits now :=
    List.filter_eq_self.2 fun q hq => by rw [isFree_iff.1 hfree q hq]; rfl
  have htidy : (buffer.expire limits now).IsTidy limits := h.sublist List.filter_sublist
  have hrest := leavesRoom_makeRoom limits (buffer.expire limits now)
  rcases htidy.leavesRoom_cases hrest with ⟨hlt, -⟩ | ⟨-, oldest, holdest, heq⟩
  · exact absurd hfull (Nat.ne_of_lt hlt)
  · exact ⟨oldest, holdest, by rw [snd_offer_of_opens hp hopens, hbesides, heq]⟩

/-- A part that starts a partial over leaves the others that are still alive alone. -/
theorem IsTidy.offer_of_changed (h : buffer.IsTidy limits) (hp : m.part? = some p)
    (hfind : (buffer.expire limits now).find? m.sender p.identifier = some q)
    (haccepts : q.accepts p = false) :
    (buffer.offer limits now m).2 = (buffer.expire limits now).others m.sender p.identifier ++
      [Partial.collecting now ⟨m, p⟩ [⟨m, p⟩]] := by
  have hopens : buffer.opens limits now m = true :=
    (opens_iff hp).2 (by rw [hfind, Option.filter_some, haccepts]; rfl)
  have hlength : (buffer.besides limits now m p).length < limits.room := by
    have hle := (besides_concat_subperm hfind).length_le
    rw [List.length_append, List.length_singleton] at hle
    exact Nat.lt_of_lt_of_le hle h.length_le
  rw [snd_offer_of_opens hp hopens, makeRoom_eq_self hlength]
  rfl

end Buffer

end SecureInbox
