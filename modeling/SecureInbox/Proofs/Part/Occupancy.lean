import SecureInbox.Proofs.Part.Isolation

/-!
# What the buffer holds

Whatever was offered to the buffer, and whenever, it holds no more partials than there is
room for and no two for one sender and identifier. Each of them *waits*: it has two to
fifteen slots, of which some are filled and some are not, and in those that are filled
the chunks of parts that came from its sender with its identifier
(`History.staysInOrder`).

So nothing goes wrong on the way of a part into the buffer, whichever of the oldest
partials make room for it:

* making room is a loop that stops, and then there is room (`Buffer.makesRoom`);
* the partial for the part is found, has the slot for it, and is found again when the
  slot is filled (`Buffer.exists_finds`);
* where the answer is to wait, at least one part has come and at least one is missing
  (`Buffer.bounds_of_awaiting`).

None of this depends on the clock, which may stand still or go back.
-/

namespace SecureInbox

variable {limits : Limits} {now : Nat} {m : Message} {p : Part} {q : Partial}
  {buffer buffer' rest : Buffer} {answer : Release}

/-! ## Partials that wait -/

/-- The partial waits for parts, and some have come. -/
structure Partial.IsWaiting (q : Partial) : Prop where
  lead : ∃ kind, (kind, q.lead) ∈ Wire.leads
  two_le : 2 ≤ q.slots.length
  length_le : q.slots.length ≤ Part.maxParts
  filled : ∃ chunk, some chunk ∈ q.slots
  empty : none ∈ q.slots

namespace Partial

theorem IsWaiting.received_pos (h : q.IsWaiting) : 0 < q.received := by
  obtain ⟨chunk, hchunk⟩ := h.filled
  exact List.countP_pos_iff.2 ⟨some chunk, hchunk, rfl⟩

theorem IsWaiting.received_lt (h : q.IsWaiting) : q.received < q.slots.length := by
  refine Nat.lt_of_le_of_ne List.countP_le_length fun heq => ?_
  exact Bool.noConfusion (List.countP_eq_length.1 heq none h.empty)

theorem accepts_iff {p : Part} : q.accepts p = true ↔
    q.slots.length = p.count.toNat ∧ q.lead = p.lead ∧ q.version = p.version := by
  simp [accepts, and_assoc]

/-- A partial that takes a part has the slot for it. -/
theorem index_lt_of_accepts (hp : m.part? = some p) (h : q.accepts p = true) :
    p.index.toNat < q.slots.length := by
  rw [(accepts_iff.1 h).1]
  exact UInt8.lt_iff_toNat_lt.1 (Message.isWellFormed_part? hp).index_lt

/-- A partial that has taken a part and is not whole waits. -/
theorem isWaiting_fill (hp : m.part? = some p) (h : q.accepts p = true)
    (hincomplete : (q.fill m p).isComplete = false) : (q.fill m p).IsWaiting := by
  have hindex := index_lt_of_accepts hp h
  obtain ⟨hlength, hlead, -⟩ := accepts_iff.1 h
  have hlength' : (q.fill m p).slots.length = p.count.toNat := by
    rw [fill, List.length_set, hlength]
  have hwellFormed := Message.isWellFormed_part? hp
  refine
    { lead := ?_
      two_le := hlength'.symm ▸ Message.one_lt_count hp
      length_le := hlength'.symm ▸ hwellFormed.count_le
      filled := ⟨p.chunk, List.mem_set hindex _⟩
      empty := ?_ }
  · obtain ⟨kind, hkind⟩ := hwellFormed.lead
    exact ⟨kind, hlead.symm ▸ hkind⟩
  · obtain ⟨slot, hslot, hnone⟩ := List.all_eq_false.1 hincomplete
    rwa [Option.not_isSome_iff_eq_none.1 hnone] at hslot

theorem accepts_openFor (m : Message) (p : Part) (now : Nat) :
    (openFor m p now).accepts p = true := by
  simp [accepts, openFor]

/-- A new partial waits for the parts that are still to come. -/
theorem isWaiting_collecting (hp : m.part? = some p) :
    (collecting now ⟨m, p⟩ [⟨m, p⟩]).IsWaiting := by
  have hincomplete : (collecting now ⟨m, p⟩ [⟨m, p⟩]).isComplete = false :=
    isComplete_collecting_single (Message.one_lt_count hp)
  rw [← fill_openFor] at hincomplete ⊢
  exact isWaiting_fill hp (accepts_openFor m p now) hincomplete

/-- The partial with the part in it, if it is the one for the part. -/
def fillFor (m : Message) (p : Part) (q : Partial) : Partial :=
  if q.isFor m.sender p.identifier then q.fill m p else q

@[simp]
theorem isFor_fillFor (m : Message) (p : Part) (q : Partial) (sender : String)
    (identifier : UInt8) : (q.fillFor m p).isFor sender identifier = q.isFor sender identifier := by
  unfold fillFor
  split <;> rfl

end Partial

namespace Buffer

/-! ## Finding the partial for a part -/

/-- The buffer in which a part looks for its partial: the partials that are still alive,
    with a new one if none of them will take the part. -/
def prepare (limits : Limits) (now : Nat) (m : Message) (p : Part) (buffer : Buffer) : Buffer :=
  match ((buffer.expire limits now).find? m.sender p.identifier).filter (·.accepts p) with
  | some _ => buffer.expire limits now
  | none => (buffer.besides limits now m p).makeRoom limits ++ [Partial.openFor m p now]

/-- The buffers in which a part may look for its partial, as any of the oldest partials may
    make room for a new one. -/
inductive Prepares (limits : Limits) (now : Nat) (m : Message) (p : Part) (buffer : Buffer) :
    Buffer → Prop
  | found {q : Partial} : (buffer.expire limits now).find? m.sender p.identifier = some q →
      q.accepts p = true → Prepares limits now m p buffer (buffer.expire limits now)
  | opened {rest : Buffer} :
      ((buffer.expire limits now).find? m.sender p.identifier).filter (·.accepts p) = none →
      (buffer.besides limits now m p).LeavesRoom limits rest →
      Prepares limits now m p buffer (rest ++ [Partial.openFor m p now])

theorem prepares_prepare (limits : Limits) (now : Nat) (m : Message) (p : Part) (buffer : Buffer) :
    buffer.Prepares limits now m p (buffer.prepare limits now m p) := by
  unfold prepare
  split
  · rename_i q hfind
    obtain ⟨hfind, haccepts⟩ := Option.filter_eq_some_iff.1 hfind
    exact .found hfind haccepts
  · rename_i hfind
    exact .opened hfind (leavesRoom_makeRoom limits _)

/-- The buffer with a part put into the partial for it. -/
def put (m : Message) (p : Part) (buffer : Buffer) : Buffer := buffer.map (·.fillFor m p)

/-- In the buffer prepared for it, a part finds the partial `q`, and again when it has been
    put there. It leaves with it or stays. -/
structure Finds (limits : Limits) (now : Nat) (m : Message) (p : Part) (buffer prepared : Buffer)
    (q : Partial) : Prop where
  find?_eq : prepared.find? m.sender p.identifier = some q
  accepts : q.accepts p = true
  index_lt : p.index.toNat < q.slots.length
  find?_put : (prepared.put m p).find? m.sender p.identifier = some (q.fill m p)
  answers : Answers limits now buffer m
    (settle (q.fill m p) ((prepared.put m p).others m.sender p.identifier)).1
    (settle (q.fill m p) ((prepared.put m p).others m.sender p.identifier)).2
  offer_eq : prepared = buffer.prepare limits now m p →
    buffer.offer limits now m =
      settle (q.fill m p) ((prepared.put m p).others m.sender p.identifier)

theorem find?_put (h : buffer.find? m.sender p.identifier = some q) :
    (buffer.put m p).find? m.sender p.identifier = some (q.fill m p) := by
  have hfor := isFor_of_find? h
  rw [find?] at h
  rw [find?, put, List.find?_map]
  simp only [Function.comp_def, Partial.isFor_fillFor, h, Option.map_some]
  rw [Partial.fillFor, if_pos hfor]

theorem others_put (m : Message) (p : Part) (buffer : Buffer) :
    (buffer.put m p).others m.sender p.identifier = buffer.others m.sender p.identifier := by
  -- the partials for others are not touched, and those that are touched are left out
  rw [others, put, List.filter_map]
  simp only [Function.comp_def, Partial.isFor_fillFor]
  refine (List.map_congr_left fun q hq => ?_).trans (List.map_id _)
  have hfor : q.isFor m.sender p.identifier = false := by simpa using (List.mem_filter.1 hq).2
  rw [Partial.fillFor, hfor, if_neg Bool.false_ne_true, id]

theorem finds_found (hp : m.part? = some p)
    (hfind : (buffer.expire limits now).find? m.sender p.identifier = some q)
    (haccepts : q.accepts p = true) : Finds limits now m p buffer (buffer.expire limits now) q := by
  have hoffer : buffer.offer limits now m =
      settle (q.fill m p) (((buffer.expire limits now).put m p).others m.sender p.identifier) := by
    rw [others_put, offer_joined hp hfind haccepts, besides]
  exact
    { find?_eq := hfind
      accepts := haccepts
      index_lt := Partial.index_lt_of_accepts hp haccepts
      find?_put := find?_put hfind
      answers := offer_answers hoffer
      offer_eq := fun _ => hoffer }

theorem finds_opened (hp : m.part? = some p)
    (hfind : ((buffer.expire limits now).find? m.sender p.identifier).filter (·.accepts p) = none)
    (hrest : (buffer.besides limits now m p).LeavesRoom limits rest) :
    Finds limits now m p buffer (rest ++ [Partial.openFor m p now]) (Partial.openFor m p now) := by
  have hfor : (Partial.openFor m p now).isFor m.sender p.identifier = true :=
    Partial.isFor_iff.2 ⟨rfl, rfl⟩
  have hfree : rest.IsFree m.sender p.identifier :=
    isFree_others.of_subset hrest.sublist.subset
  have hothers : others (rest ++ [Partial.openFor m p now]) m.sender p.identifier = rest := by
    rw [others, List.filter_append, List.filter_eq_self.2 fun q hq => by
      rw [isFree_iff.1 hfree q hq]; rfl]
    simp [hfor]
  have hfound := hfree.find?_concat hfor
  exact
    { find?_eq := hfound
      accepts := Partial.accepts_openFor m p now
      index_lt := Partial.index_lt_of_accepts hp (Partial.accepts_openFor m p now)
      find?_put := find?_put hfound
      answers := by
        rw [others_put, hothers, Partial.fill_openFor, settle_opened hp]
        exact .opened hp hfind hrest
      offer_eq := fun hprepared => by
        rw [prepare, hfind] at hprepared
        have hrest : rest = (buffer.besides limits now m p).makeRoom limits :=
          List.append_cancel_right hprepared
        rw [others_put, hothers, Partial.fill_openFor, offer_opened hp hfind, hrest] }

/-- Whichever of the oldest partials have made room, a part finds its partial. -/
theorem exists_finds {prepared : Buffer} (hp : m.part? = some p)
    (h : buffer.Prepares limits now m p prepared) :
    ∃ q, Finds limits now m p buffer prepared q := by
  cases h with
  | found hfind haccepts => exact ⟨_, finds_found hp hfind haccepts⟩
  | opened hfind hrest => exact ⟨_, finds_opened hp hfind hrest⟩

/-! ## What a call leaves -/

/-- Whoever waits is told of one part at least, and of fewer than all. -/
theorem bounds_of_awaiting {identifier : UInt8} {received expected : Nat}
    (h : Answers limits now buffer m (.awaiting identifier received expected) buffer') :
    1 ≤ received ∧ received < expected ∧ expected ≤ Part.maxParts := by
  cases h with
  | opened hp =>
    exact ⟨Nat.le_refl 1, Message.one_lt_count hp, (Message.isWellFormed_part? hp).count_le⟩
  | joined hp _ haccepts hincomplete =>
    have hwaiting := Partial.isWaiting_fill hp haccepts hincomplete
    exact ⟨hwaiting.received_pos, hwaiting.received_lt, hwaiting.length_le⟩

/-- There are no more partials than there is room for, no two under one key, and all of
    them wait. -/
structure IsInOrder (limits : Limits) (buffer : Buffer) : Prop where
  length_le : buffer.length ≤ limits.room
  nodup_key : (buffer.map Partial.key).Nodup
  isWaiting : ∀ q ∈ buffer, q.IsWaiting

theorem isInOrder_nil (limits : Limits) : IsInOrder limits [] := ⟨Nat.zero_le _, .nil, nofun⟩

/-- A call leaves the buffer in order, whatever it is and whenever it comes. -/
theorem IsInOrder.of_answers (h : buffer.IsInOrder limits)
    (hanswers : Answers limits now buffer m answer buffer') : buffer'.IsInOrder limits where
  length_le := hanswers.length_le h.length_le
  nodup_key := hanswers.nodup_key h.nodup_key
  isWaiting q hq := by
    have hbesides : ∀ {p}, q ∈ buffer.besides limits now m p → q.IsWaiting := fun hq =>
      h.isWaiting q (mem_of_mem_besides hq).1
    -- the partial at the end is the one that has taken the part
    cases hanswers with
    | passed => exact h.isWaiting q hq
    | opened hp _ hrest =>
      rcases List.mem_append.1 hq with hq | hq
      · exact hbesides (hrest.sublist.subset hq)
      · exact List.mem_singleton.1 hq ▸ Partial.isWaiting_collecting hp
    | joined hp _ haccepts hincomplete =>
      rcases List.mem_append.1 hq with hq | hq
      · exact hbesides hq
      · exact List.mem_singleton.1 hq ▸ Partial.isWaiting_fill hp haccepts hincomplete
    | released => exact hbesides hq

end Buffer

/-! ## Every buffer that comes about -/

variable {calls : List Call}

/-- The chunk came in one of the calls, with a part that is for the partial `q` and its
    slot `i`. -/
structure Partial.IsSlotOf (q : Partial) (calls : List Call) (i : Nat) (chunk : Bytes)
    (c : Call) (p : Part) : Prop where
  mem : c ∈ calls
  part? : c.message.part? = some p
  sender_eq : c.message.sender = q.sender
  identifier_eq : p.identifier = q.identifier
  index_eq : p.index.toNat = i
  chunk_eq : p.chunk = chunk
  accepts : q.accepts p = true

namespace History

theorem isInOrder (h : History limits calls buffer) : buffer.IsInOrder limits := by
  induction h with
  | nil => exact Buffer.isInOrder_nil limits
  | snoc _ hanswers ih => exact ih.of_answers hanswers

/-- What is in the slots came in parts that are for the partial. -/
theorem exists_isSlotOf (h : History limits calls buffer) (hq : q ∈ buffer) {i : Nat}
    {chunk : Bytes} (hslot : q.slots[i]? = some (some chunk)) :
    ∃ c p, q.IsSlotOf calls i chunk c p := by
  obtain ⟨first, since, hsuffix, hbuilt⟩ := h.isBuiltBy q hq
  obtain ⟨a, ha, heq⟩ := hbuilt.opened
  rw [heq, Partial.getElem?_slots_collecting] at hslot
  split at hslot
  · -- the slot holds the chunk of the latest arrival with its index
    obtain ⟨b, hlatest, rfl⟩ := Option.map_eq_some_iff.1 (Option.some.inj hslot)
    obtain ⟨c, hc, hb⟩ := List.mem_filterMap.1 (Arrival.mem_of_latest? hlatest)
    obtain ⟨-, hpart, hsender, hidentifier⟩ := Message.arrivalFor?_eq_some.1 hb
    exact ⟨c, b.part, hsuffix.subset hc, hpart, hsender, hidentifier,
      Arrival.index_of_latest? hlatest, rfl, (hbuilt.undisturbed c hc b hb).1⟩
  · exact nomatch hslot

end History

/-- The buffer is in order, and the next call will go well, whatever it is and whenever it
    comes, and whichever of the oldest partials make room. -/
structure StaysInOrder (limits : Limits) (calls : List Call) (buffer : Buffer) : Prop where
  isInOrder : buffer.IsInOrder limits
  slots : ∀ q ∈ buffer, ∀ i chunk, q.slots[i]? = some (some chunk) →
    ∃ c p, q.IsSlotOf calls i chunk c p
  makesRoom : ∀ now m p, (buffer.besides limits now m p).MakesRoom limits
  prepares : ∀ now m p, buffer.Prepares limits now m p (buffer.prepare limits now m p)
  finds : ∀ now m p prepared, m.part? = some p → buffer.Prepares limits now m p prepared →
    ∃ q, Buffer.Finds limits now m p buffer prepared q
  awaiting : ∀ now m identifier received expected buffer',
    Buffer.Answers limits now buffer m (.awaiting identifier received expected) buffer' →
      1 ≤ received ∧ received < expected ∧ expected ≤ Part.maxParts

namespace History

/-- Whatever calls there were, the buffer is in order. -/
theorem staysInOrder (h : History limits calls buffer) : StaysInOrder limits calls buffer where
  isInOrder := h.isInOrder
  slots _ hq _ _ := h.exists_isSlotOf hq
  makesRoom now m p := Buffer.makesRoom limits (buffer.besides limits now m p)
  prepares now m p := Buffer.prepares_prepare limits now m p buffer
  finds _ _ _ _ := Buffer.exists_finds
  awaiting _ _ _ _ _ _ := Buffer.bounds_of_awaiting

/-- Where no room is asked for, there is room for one: the half of a second sender takes the
    place of the first one's, although the clock stands still. -/
theorem staysInOrder_noRoom :
    ∃ calls q, History { maxPending := 0 } calls [q] ∧ 1 < calls.length ∧
      StaysInOrder { maxPending := 0 } calls [q] := by
  let limits : Limits := { maxPending := 0 }
  let alices : Message := .plain "alice" (Part.half 0 10).encode 1
  let bobs : Message := .plain "bob" (Part.half 1 20).encode 1
  have halice : alices.part? = some (Part.half 0 10) := Message.part?_half (by decide) 10 _ _
  have hbob : bobs.part? = some (Part.half 1 20) := Message.part?_half (by decide) 20 _ _
  let q := Partial.collecting 0 ⟨alices, Part.half 0 10⟩ [⟨alices, Part.half 0 10⟩]
  let q' := Partial.collecting 0 ⟨bobs, Part.half 1 20⟩ [⟨bobs, Part.half 1 20⟩]
  let first : Call := { time := 0, message := alices, answer := .awaiting 7 1 2 }
  let last : Call := { time := 0, message := bobs, answer := .awaiting 7 1 2 }
  have hfirst : Buffer.offer limits 0 alices [] = (.awaiting 7 1 2, [q]) :=
    Buffer.offer_opened halice rfl
  have hlast : Buffer.offer limits 0 bobs [q] = (.awaiting 7 1 2, [q']) :=
    Buffer.offer_opened hbob rfl
  have h : History limits ([] ++ [first] ++ [last]) [q'] := .offer (.offer .nil hfirst) hlast
  exact ⟨_, q', h, Nat.one_lt_two, h.staysInOrder⟩

end History

end SecureInbox
