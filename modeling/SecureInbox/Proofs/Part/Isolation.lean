import Mathlib.Data.List.Dedup
import SecureInbox.Proofs.Part.Room

/-!
# Senders in the buffer

As long as there is room for the partials of all senders and identifiers that occur
(`Buffer.KeyedBy`), none is dropped to make room, and what the buffer does for a
sender depends only on the partials of that sender which are still alive, their
*share*:

* a part of the sender is answered the same over buffers with the same share, and
  the shares stay the same (`Buffer.offer_congr`);
* a part of anyone else leaves the share alone (`Buffer.share_offer_of_ne`).

The age of partials matters only as time goes by, so shares that are the same at one
time are the same ever after (`Buffer.share_mono`).
-/

namespace SecureInbox

/-- What a partial is known by. -/
def Partial.key (q : Partial) : String × UInt8 := (q.sender, q.identifier)

/-- The sender and the identifier of the part that a message is, if it is one of
    several. -/
def Message.key? (m : Message) : Option (String × UInt8) :=
  m.part?.map fun p => (m.sender, p.identifier)

theorem Message.key?_eq_some {m : Message} {p : Part} (hp : m.part? = some p) :
    m.key? = some (m.sender, p.identifier) := by
  rw [key?, hp, Option.map_some]

theorem Partial.isFor_iff_key {q : Partial} {sender : String} {identifier : UInt8} :
    q.isFor sender identifier = true ↔ q.key = (sender, identifier) := by
  rw [isFor_iff, key, Prod.mk.injEq]

namespace Buffer

variable {limits : Limits} {now : Nat} {m : Message} {p : Part} {buffer buffer' : Buffer}
  {sender : String} {q : Partial} {keys : List (String × UInt8)}

theorem mem_besides (hq : q ∈ buffer) (halive : q.isAlive limits now = true)
    (hkey : q.key ≠ (m.sender, p.identifier)) : q ∈ buffer.besides limits now m p := by
  have hfor : q.isFor m.sender p.identifier = false :=
    Bool.eq_false_iff.2 fun h => hkey (Partial.isFor_iff_key.1 h)
  simp [besides, others, expire, hq, halive, hfor]

theorem key_ne_of_mem_besides (hq : q ∈ buffer.besides limits now m p) :
    q.key ≠ (m.sender, p.identifier) := fun hkey =>
  Bool.noConfusion ((mem_of_mem_besides hq).2.symm.trans (Partial.isFor_iff_key.2 hkey))

/-- No key comes twice after a call if none did before. -/
theorem Answers.nodup_key {answer : Release} (h : Answers limits now buffer m answer buffer')
    (hnodup : (buffer.map Partial.key).Nodup) : (buffer'.map Partial.key).Nodup :=
  h.nodup_map (fun _ _ _ => rfl) (fun _ _ hq => key_ne_of_mem_besides hq) hnodup

/-! ## Room for all -/

/-- The partials are for different senders or identifiers, and all of those are among
    the keys. -/
structure KeyedBy (keys : List (String × UInt8)) (buffer : Buffer) : Prop where
  nodup : (buffer.map Partial.key).Nodup
  mem : ∀ q ∈ buffer, q.key ∈ keys

theorem keyedBy_nil (keys : List (String × UInt8)) : KeyedBy keys [] := ⟨.nil, nofun⟩

theorem KeyedBy.sublist (h : buffer.KeyedBy keys) (hsub : List.Sublist buffer' buffer) :
    KeyedBy keys buffer' where
  nodup := h.nodup.sublist (hsub.map _)
  mem q hq := h.mem q (hsub.subset hq)

theorem KeyedBy.concat (h : buffer.KeyedBy keys) (hkey : q.key ∈ keys)
    (hnew : ∀ q' ∈ buffer, q'.key ≠ q.key) : KeyedBy keys (buffer ++ [q]) where
  nodup := nodup_map_concat h.nodup hnew
  mem q' hq' := by
    rcases List.mem_append.1 hq' with hq' | hq'
    · exact h.mem q' hq'
    · rwa [List.mem_singleton.1 hq']

/-- There is no more than one partial for every key. -/
theorem KeyedBy.length_le (h : buffer.KeyedBy keys) : buffer.length ≤ keys.dedup.length := by
  rw [← List.length_map (f := Partial.key)]
  refine (List.subperm_of_subset h.nodup fun key hkey => ?_).length_le
  obtain ⟨q, hq, rfl⟩ := List.mem_map.1 hkey
  exact List.mem_dedup.2 (h.mem q hq)

/-- The partial that a part is put into. -/
def target (limits : Limits) (now : Nat) (m : Message) (p : Part) (buffer : Buffer) : Partial :=
  ((((buffer.expire limits now).find? m.sender p.identifier).filter (·.accepts p)).getD
    (Partial.openFor m p now)).fill m p

theorem key_target (limits : Limits) (now : Nat) (m : Message) (p : Part) (buffer : Buffer) :
    (buffer.target limits now m p).key = (m.sender, p.identifier) := by
  unfold target
  cases hfind : ((buffer.expire limits now).find? m.sender p.identifier).filter (·.accepts p) with
  | none => rfl
  | some q =>
    have hfor := isFor_of_find? (Option.filter_eq_some_iff.1 hfind).1
    exact Partial.isFor_iff_key.1 hfor

theorem KeyedBy.besides (h : buffer.KeyedBy keys) :
    (buffer.besides limits now m p).KeyedBy keys :=
  h.sublist (besides_sublist limits now m p buffer)

theorem KeyedBy.concat_target (h : buffer.KeyedBy keys)
    (hkey : (m.sender, p.identifier) ∈ keys) :
    KeyedBy keys (buffer.besides limits now m p ++ [buffer.target limits now m p]) := by
  refine h.besides.concat ((key_target limits now m p buffer).symm ▸ hkey) fun q hq hkey => ?_
  exact key_ne_of_mem_besides hq (hkey.trans (key_target limits now m p buffer))

/-- What is beside a part leaves room for the partial of the part. -/
theorem KeyedBy.length_besides_lt (h : buffer.KeyedBy keys)
    (hroom : keys.dedup.length ≤ limits.room) (hkey : (m.sender, p.identifier) ∈ keys) :
    (buffer.besides limits now m p).length < limits.room := by
  have hkeyed : KeyedBy keys
      (buffer.besides limits now m p ++ [buffer.target limits now m p]) := h.concat_target hkey
  have hle := hkeyed.length_le
  rw [List.length_append, List.length_singleton] at hle
  omega

/-- With room for all, nothing but the partial for a part is touched. -/
theorem KeyedBy.offer_eq (h : buffer.KeyedBy keys) (hroom : keys.dedup.length ≤ limits.room)
    (hp : m.part? = some p) (hkey : (m.sender, p.identifier) ∈ keys) :
    buffer.offer limits now m =
      settle (buffer.target limits now m p) (buffer.besides limits now m p) := by
  cases hfind : ((buffer.expire limits now).find? m.sender p.identifier).filter (·.accepts p) with
  | none =>
    rw [offer_opened hp hfind, makeRoom_eq_self (h.length_besides_lt hroom hkey), target, hfind,
      Option.getD_none, Partial.fill_openFor]
  | some q =>
    obtain ⟨hfind', haccepts⟩ := Option.filter_eq_some_iff.1 hfind
    rw [offer_joined hp hfind' haccepts, target, hfind, Option.getD_some]

theorem settle_snd (q : Partial) (rest : Buffer) :
    (settle q rest).2 = if q.isComplete then rest else rest ++ [q] := by
  unfold settle
  split <;> rfl

/-- Offering a message opens partials for no other keys. -/
theorem KeyedBy.offer (h : buffer.KeyedBy keys) (hroom : keys.dedup.length ≤ limits.room)
    (hkeys : ∀ key, m.key? = some key → key ∈ keys) :
    (buffer.offer limits now m).2.KeyedBy keys := by
  cases hp : m.part? with
  | none => rwa [offer_passed limits now hp]
  | some p =>
    have hkey : (m.sender, p.identifier) ∈ keys := hkeys _ (Message.key?_eq_some hp)
    rw [h.offer_eq hroom hp hkey, settle_snd]
    split
    · exact h.besides
    · exact h.concat_target hkey

/-! ## Shares -/

/-- The partials of a sender that are still alive. -/
def share (limits : Limits) (now : Nat) (sender : String) (buffer : Buffer) : Buffer :=
  (buffer.expire limits now).filter (·.sender == sender)

theorem share_concat (limits : Limits) (now : Nat) (sender : String) (buffer : Buffer)
    (q : Partial) :
    share limits now sender (buffer ++ [q]) =
      buffer.share limits now sender ++ share limits now sender [q] := by
  simp [share, expire]

theorem share_eq_nil (h : q.sender ≠ sender) : share limits now sender [q] = [] := by
  have hfilter : ∀ x ∈ expire limits now [q], ¬(x.sender == sender) = true := by
    intro x hx
    rw [List.mem_singleton.1 (mem_of_mem_expire hx).1, beq_iff_eq]
    exact h
  exact List.filter_eq_nil_iff.2 hfilter

/-- Partials that are no longer alive do not come back. -/
theorem isAlive_mono {now' : Nat} (hle : now ≤ now') (h : q.isAlive limits now' = true) :
    q.isAlive limits now = true := by
  simp only [Partial.isAlive, decide_eq_true_eq] at h ⊢
  omega

theorem share_later {now' : Nat} (hle : now ≤ now') (sender : String) (buffer : Buffer) :
    buffer.share limits now' sender =
      (buffer.share limits now sender).filter (·.isAlive limits now') := by
  simp only [share, expire, List.filter_filter]
  refine List.filter_congr fun q _ => ?_
  cases halive : q.isAlive limits now' with
  | false => simp
  | true => simp [isAlive_mono hle halive]

/-- What a sender and another buffer share at a time they share ever after. -/
theorem share_mono {now' : Nat}
    (h : buffer.share limits now sender = buffer'.share limits now sender) (hle : now ≤ now') :
    buffer.share limits now' sender = buffer'.share limits now' sender := by
  rw [share_later hle, share_later hle, h]

/-- A partial for a sender is found in the share. -/
theorem find?_share (limits : Limits) (now : Nat) (sender : String) (identifier : UInt8)
    (buffer : Buffer) :
    (buffer.share limits now sender).find? sender identifier =
      (buffer.expire limits now).find? sender identifier := by
  rw [share, find?, find?, List.find?_filter]
  congr 1
  funext q
  by_cases hsender : q.sender = sender
  · simp [Partial.isFor, hsender, beq_eq_decide]
  · simp [Partial.isFor, hsender]

theorem share_besides (limits : Limits) (now : Nat) (m : Message) (p : Part) (buffer : Buffer) :
    (buffer.besides limits now m p).share limits now m.sender =
      (buffer.share limits now m.sender).others m.sender p.identifier := by
  simp only [share, besides, others, expire, List.filter_filter]
  refine List.filter_congr fun q _ => ?_
  cases q.isAlive limits now <;> cases q.sender == m.sender <;> simp

theorem share_besides_of_ne (hne : m.sender ≠ sender) :
    (buffer.besides limits now m p).share limits now sender =
      buffer.share limits now sender := by
  simp only [share, besides, others, expire, List.filter_filter]
  refine List.filter_congr fun q _ => ?_
  by_cases hsender : q.sender = sender
  · have hfor : q.isFor m.sender p.identifier = false :=
      Bool.eq_false_iff.2 fun hfor => hne ((Partial.isFor_iff.1 hfor).1.symm.trans hsender)
    cases q.isAlive limits now <;> simp [hfor]
  · simp [beq_false_of_ne hsender]

/-- A part is put into the same partial over buffers with the same share. -/
theorem target_congr
    (h : buffer.share limits now m.sender = buffer'.share limits now m.sender) :
    buffer.target limits now m p = buffer'.target limits now m p := by
  rw [target, target, ← find?_share, h, find?_share]

/-- What a sender offers is answered the same over buffers with the same share, and
    leaves them with the same share. -/
theorem offer_congr (hkeyed : buffer.KeyedBy keys) (hkeyed' : buffer'.KeyedBy keys)
    (hroom : keys.dedup.length ≤ limits.room) (hkeys : ∀ key, m.key? = some key → key ∈ keys)
    (h : buffer.share limits now m.sender = buffer'.share limits now m.sender) :
    (buffer.offer limits now m).1 = (buffer'.offer limits now m).1 ∧
      (buffer.offer limits now m).2.share limits now m.sender =
        (buffer'.offer limits now m).2.share limits now m.sender := by
  cases hp : m.part? with
  | none => rw [offer_passed limits now hp, offer_passed limits now hp]; exact ⟨rfl, h⟩
  | some p =>
    have hkey : (m.sender, p.identifier) ∈ keys := hkeys _ (Message.key?_eq_some hp)
    rw [hkeyed.offer_eq hroom hp hkey, hkeyed'.offer_eq hroom hp hkey, target_congr h]
    cases hcomplete : (buffer'.target limits now m p).isComplete with
    | true =>
      rw [settle_complete hcomplete, settle_complete hcomplete, share_besides, share_besides, h]
      exact ⟨rfl, rfl⟩
    | false =>
      rw [settle_awaiting hcomplete, settle_awaiting hcomplete, share_concat, share_concat,
        share_besides, share_besides, h]
      exact ⟨rfl, rfl⟩

/-- What others offer leaves the share of a sender alone. -/
theorem share_offer_of_ne (hkeyed : buffer.KeyedBy keys)
    (hroom : keys.dedup.length ≤ limits.room) (hkeys : ∀ key, m.key? = some key → key ∈ keys)
    (hne : m.sender ≠ sender) :
    (buffer.offer limits now m).2.share limits now sender = buffer.share limits now sender := by
  cases hp : m.part? with
  | none => rw [offer_passed limits now hp]
  | some p =>
    have hkey : (m.sender, p.identifier) ∈ keys := hkeys _ (Message.key?_eq_some hp)
    have hsender : (buffer.target limits now m p).sender ≠ sender := by
      rw [show (buffer.target limits now m p).sender = m.sender from
        congrArg Prod.fst (key_target limits now m p buffer)]
      exact hne
    rw [hkeyed.offer_eq hroom hp hkey, settle_snd]
    split
    · exact share_besides_of_ne hne
    · rw [share_concat, share_besides_of_ne hne, share_eq_nil hsender, List.append_nil]

end Buffer

end SecureInbox
