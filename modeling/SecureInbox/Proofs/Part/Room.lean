import SecureInbox.Proofs.Part.History

/-!
# Room in the buffer

A partial stays in the buffer while others are served, if it is young enough and
few enough are opened after it: those opened earlier are dropped first
(`Buffer.LeavesRoom.find?_eq`). An offer for another sender or identifier leaves it as
it is (`Buffer.find?_offer`), and adds at most one to the partials that were
opened since some time, and that only if it opens one (`Buffer.countP_offer_le`).
Whatever the call, it leaves no more partials than there is room for
(`Buffer.Answers.length_le`).
-/

namespace SecureInbox

/-- The offer brings a part from this sender with this identifier. -/
def Offer.isFor (sender : String) (identifier : UInt8) (o : Offer) : Bool :=
  (o.message.arrivalFor? sender identifier).isSome

theorem Offer.isFor_eq_false {sender : String} {identifier : UInt8} {o : Offer} :
    o.isFor sender identifier = false ↔ o.message.arrivalFor? sender identifier = none := by
  simp [isFor]

namespace Buffer

variable {limits : Limits} {now opened : Nat} {m : Message} {p : Part}
  {buffer buffer' rest : Buffer} {answer : Release} {sender : String} {identifier : UInt8}
  {q : Partial}

/-- A part that no partial will take opens one. -/
def opens (limits : Limits) (now : Nat) (m : Message) (buffer : Buffer) : Bool :=
  m.part?.any fun p =>
    (((buffer.expire limits now).find? m.sender p.identifier).filter (·.accepts p)).isNone

theorem opens_iff (hp : m.part? = some p) :
    buffer.opens limits now m = true ↔
      ((buffer.expire limits now).find? m.sender p.identifier).filter (·.accepts p) = none := by
  rw [opens, hp, Option.any_some, Option.isNone_iff_eq_none]

/-- How many partials these offers open for other senders or identifiers. -/
def openings (limits : Limits) (sender : String) (identifier : UInt8) :
    List Offer → Buffer → Nat
  | [], _ => 0
  | o :: offers, buffer =>
    (if buffer.opens limits o.time o.message && !o.isFor sender identifier then 1 else 0) +
      openings limits sender identifier offers (buffer.offer limits o.time o.message).2

theorem openings_append (offers offers' : List Offer) (buffer : Buffer) :
    buffer.openings limits sender identifier (offers ++ offers') =
      buffer.openings limits sender identifier offers +
        (buffer.after limits offers).openings limits sender identifier offers' := by
  induction offers generalizing buffer with
  | nil => simp [openings, after]
  | cons o offers ih => rw [List.cons_append, openings, openings, after, ih, Nat.add_assoc]

/-- An offer opens one partial at most. -/
theorem openings_le_length (offers : List Offer) (buffer : Buffer) :
    buffer.openings limits sender identifier offers ≤ offers.length := by
  induction offers generalizing buffer with
  | nil => exact Nat.le_refl 0
  | cons o offers ih =>
    have hle := ih (buffer.offer limits o.time o.message).2
    rw [openings, List.length_cons]
    split <;> omega

/-! ## Making room -/

/-- A turn spares a partial after which fewer were opened than there is room for: one that
    was opened before it goes. -/
theorem Evicts.find?_eq (hturn : Evicts limits buffer buffer')
    (h : buffer.find? sender identifier = some q)
    (hroom : buffer.countP (q.opened ≤ ·.opened) < limits.room) :
    buffer'.find? sender identifier = some q := by
  obtain @⟨x, hfull, hmem, hleast⟩ := hturn
  obtain ⟨older, holder, hlt⟩ : ∃ older ∈ buffer, older.opened < q.opened := by
    by_contra hnone
    push Not at hnone
    have hall := List.countP_eq_length.2 fun x hx => decide_eq_true (hnone x hx)
    omega
  have hx : x.opened < q.opened := Nat.lt_of_le_of_lt (hleast older holder) hlt
  obtain ⟨before, after, -, rfl, herase⟩ := List.exists_erase_eq hmem
  -- the partial found is not the one that goes, so it is found as before
  rw [find?, List.find?_append, List.find?_cons] at h
  rw [herase, find?, List.find?_append]
  cases hbefore : List.find? (·.isFor sender identifier) before with
  | some q' => simpa [hbefore] using h
  | none =>
    rw [hbefore, Option.none_or] at h
    cases hfor : x.isFor sender identifier with
    | true =>
      rw [hfor] at h
      cases h
      exact absurd hx (Nat.lt_irrefl _)
    | false =>
      rw [hfor] at h
      exact h

/-- Making room for one more partial spares one after which fewer were opened than
    there is room for. -/
theorem LeavesRoom.find?_eq (hrest : buffer.LeavesRoom limits rest)
    (h : buffer.find? sender identifier = some q)
    (hroom : buffer.countP (q.opened ≤ ·.opened) < limits.room) :
    rest.find? sender identifier = some q := by
  obtain ⟨hrun, -⟩ := hrest
  induction hrun using Relation.ReflTransGen.head_induction_on with
  | refl => exact h
  | head hturn _ ih =>
    exact ih (hturn.find?_eq h hroom) (Nat.lt_of_le_of_lt hturn.sublist.countP_le hroom)

/-! ## Offers for others -/

theorem isFor_of_arrivalFor? (hp : m.part? = some p)
    (hm : m.arrivalFor? sender identifier = none) (hq : q.isFor sender identifier = true) :
    q.isFor m.sender p.identifier = false := by
  refine Bool.eq_false_iff.2 fun hq' => ?_
  obtain ⟨rfl, rfl⟩ := Partial.isFor_iff.1 hq
  obtain ⟨hsender, hidentifier⟩ := Partial.isFor_iff.1 hq'
  rw [hsender, hidentifier, Message.arrivalFor?_self hp] at hm
  exact nomatch hm

/-- What a part is put into is not for others. -/
theorem isFor_of_mem_offer (hm : m.arrivalFor? sender identifier = none)
    (hq : q ∈ (buffer.offer limits now m).2) (hfor : q.isFor sender identifier = true) :
    q ∈ buffer := by
  rcases hoffer : buffer.offer limits now m with ⟨answer, buffer'⟩
  rw [hoffer] at hq
  cases offer_answers hoffer with
  | passed => exact hq
  | opened hp _ hrest =>
    rcases List.mem_append.1 hq with hq | hq
    · exact (mem_of_mem_besides (hrest.sublist.subset hq)).1
    · rw [List.mem_singleton.1 hq] at hfor
      exact Bool.noConfusion
        ((isFor_of_arrivalFor? hp hm hfor).symm.trans (Partial.isFor_iff.2 ⟨rfl, rfl⟩))
  | joined hp hfind =>
    rcases List.mem_append.1 hq with hq | hq
    · exact (mem_of_mem_besides hq).1
    · rw [List.mem_singleton.1 hq] at hfor
      have hfor' := isFor_of_find? hfind
      exact Bool.noConfusion ((isFor_of_arrivalFor? hp hm hfor).symm.trans hfor')
  | released => exact (mem_of_mem_besides hq).1

/-- Where nothing is collected for a sender and an identifier, an offer for others
    changes nothing about that. -/
theorem IsFree.offer (h : buffer.IsFree sender identifier)
    (hm : m.arrivalFor? sender identifier = none) :
    (buffer.offer limits now m).2.IsFree sender identifier :=
  isFree_iff.2 fun q hq => Bool.eq_false_iff.2 fun hfor =>
    absurd hfor (Bool.eq_false_iff.1 (isFree_iff.1 h q (isFor_of_mem_offer hm hq hfor)))

theorem find?_append_of_find? {rest : Buffer} (h : buffer.find? sender identifier = some q) :
    find? (buffer ++ rest) sender identifier = some q := by
  rw [find?] at h
  rw [find?, List.find?_append, h, Option.some_or]

/-- A partial stays as it is when a part for others is offered. -/
theorem find?_offer (h : buffer.find? sender identifier = some q)
    (hm : m.arrivalFor? sender identifier = none) (halive : q.isAlive limits now = true)
    (hroom : buffer.opens limits now m = true →
      buffer.countP (q.opened ≤ ·.opened) + 1 ≤ limits.room) :
    (buffer.offer limits now m).2.find? sender identifier = some q := by
  have hbesides : ∀ {p}, m.part? = some p →
      (buffer.besides limits now m p).find? sender identifier = some q := fun hp =>
    find?_filter (find?_expire h halive) (by simp [isFor_of_arrivalFor? hp hm (isFor_of_find? h)])
  rcases hoffer : buffer.offer limits now m with ⟨answer, buffer'⟩
  cases offer_answers hoffer with
  | passed => exact h
  | @opened p _ hp hfind hrest =>
    have hle : (buffer.besides limits now m p).countP (q.opened ≤ ·.opened) ≤
        buffer.countP (q.opened ≤ ·.opened) :=
      (besides_sublist limits now m p buffer).countP_le
    have hroom := hroom ((opens_iff hp).2 hfind)
    exact find?_append_of_find? (hrest.find?_eq (hbesides hp) (by omega))
  | joined hp => exact find?_append_of_find? (hbesides hp)
  | released hp => exact hbesides hp

/-- The partial that a part is for is not among those beside it. -/
theorem besides_concat_subperm
    (hfind : (buffer.expire limits now).find? m.sender p.identifier = some q) :
    (buffer.besides limits now m p ++ [q]).Subperm buffer := by
  have hq : [q].Sublist ((buffer.expire limits now).filter (·.isFor m.sender p.identifier)) :=
    List.singleton_sublist.2 (List.mem_filter.2 ⟨mem_of_find? hfind, isFor_of_find? hfind⟩)
  have hparted : (buffer.besides limits now m p ++
      (buffer.expire limits now).filter (·.isFor m.sender p.identifier)).Perm
        (buffer.expire limits now) :=
    List.perm_append_comm.trans (List.filter_append_perm _ _)
  exact (hq.append_left _).subperm.trans (hparted.subperm.trans List.filter_sublist.subperm)

/-- An offer adds no partial but the one that it opens. -/
theorem countP_offer_le (limits : Limits) (now opened : Nat) (m : Message) (buffer : Buffer) :
    (buffer.offer limits now m).2.countP (opened ≤ ·.opened) ≤
      buffer.countP (opened ≤ ·.opened) + if buffer.opens limits now m then 1 else 0 := by
  rcases hoffer : buffer.offer limits now m with ⟨answer, buffer'⟩
  cases offer_answers hoffer with
  | passed => exact Nat.le_add_right _ _
  | @opened p _ hp hfind hrest =>
    rw [if_pos ((opens_iff hp).2 hfind), List.countP_append]
    exact Nat.add_le_add (hrest.sublist.trans (besides_sublist limits now m p buffer)).countP_le
      List.countP_le_length
  | @joined p q hp hfind =>
    refine Nat.le_trans ?_ (Nat.le_add_right _ _)
    have hle := (besides_concat_subperm hfind).countP_le (opened ≤ ·.opened)
    simpa [Partial.fill] using hle
  | released => exact Nat.le_trans (besides_sublist ..).countP_le (Nat.le_add_right _ _)

/-! ## What a call leaves -/

/-- A call does not leave more partials than there is room for. -/
theorem Answers.length_le (h : Answers limits now buffer m answer buffer')
    (hlength : buffer.length ≤ limits.room) : buffer'.length ≤ limits.room := by
  cases h with
  | passed => exact hlength
  | opened _ _ hrest =>
    rw [List.length_append, List.length_singleton]
    exact hrest.length_lt
  | joined _ hfind =>
    have hle := (besides_concat_subperm hfind).length_le
    rw [List.length_append, List.length_singleton] at hle ⊢
    exact hle.trans hlength
  | released => exact (besides_sublist ..).length_le.trans hlength

theorem nodup_map_concat {α : Type} {f : Partial → α} (h : (buffer.map f).Nodup)
    (hnew : ∀ q' ∈ buffer, f q' ≠ f q) : ((buffer ++ [q]).map f).Nodup := by
  rw [List.map_append, List.map_singleton]
  refine List.nodup_append.2 ⟨h, List.nodup_singleton _, ?_⟩
  simpa using hnew

/-- What tells the partials apart still does after a call, if it is the same for a partial
    that is filled and tells a new one from those beside it. -/
theorem Answers.nodup_map {α : Type} {f : Partial → α}
    (h : Answers limits now buffer m answer buffer') (hfill : ∀ q m p, f (Partial.fill q m p) = f q)
    (hnew : ∀ p, ∀ q ∈ buffer.besides limits now m p,
      f q ≠ f (Partial.collecting now ⟨m, p⟩ [⟨m, p⟩]))
    (hnodup : (buffer.map f).Nodup) : (buffer'.map f).Nodup := by
  have hbesides : ∀ p, ((buffer.besides limits now m p).map f).Nodup := fun p =>
    hnodup.sublist ((besides_sublist limits now m p buffer).map f)
  cases h with
  | passed => exact hnodup
  | opened _ _ hrest =>
    exact nodup_map_concat ((hbesides _).sublist (hrest.sublist.map f)) fun q hq =>
      hnew _ q (hrest.sublist.subset hq)
  | joined _ hfind =>
    -- the partial that is filled is told from the others as it was before
    obtain ⟨sorted, hperm, hsub⟩ := besides_concat_subperm hfind
    have hbefore := (hperm.map f).nodup_iff.1 (hnodup.sublist (hsub.map f))
    simpa [hfill] using hbefore
  | released => exact hbesides _

end Buffer

end SecureInbox
