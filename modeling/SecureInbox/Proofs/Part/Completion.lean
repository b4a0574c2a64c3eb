import SecureInbox.Proofs.Part.Room
import SecureInbox.Proofs.Part.Supply

/-!
# Collecting the parts of a message

The parts of a split message are offered in any order and any number of times,
and anything is offered in between (`IsTransfer`). As long as a part is missing
the buffer waits and counts the different parts; the part that was missing gives
back the whole message, with the timestamp of the latest copy of the first part
(`IsTransfer.collects_of_split`).

What carries this is that one partial gathers all that arrives while few partials
are opened after it (`Buffer.Gathers`).
-/

namespace SecureInbox

open Arrival (latest?)

/-- The arrivals that offers bring from a sender with an identifier. -/
def Offer.arrivals (sender : String) (identifier : UInt8) (offers : List Offer) : List Arrival :=
  offers.filterMap (·.message.arrivalFor? sender identifier)

namespace Offer

variable {sender : String} {identifier : UInt8} {o : Offer} {a : Arrival}

theorem arrivals_append (offers offers' : List Offer) :
    arrivals sender identifier (offers ++ offers') =
      arrivals sender identifier offers ++ arrivals sender identifier offers' :=
  List.filterMap_append

theorem arrivals_cons_some (ho : o.message.arrivalFor? sender identifier = some a)
    (offers : List Offer) :
    arrivals sender identifier (o :: offers) = a :: arrivals sender identifier offers :=
  List.filterMap_cons_some ho

theorem arrivals_cons_none (ho : o.message.arrivalFor? sender identifier = none)
    (offers : List Offer) :
    arrivals sender identifier (o :: offers) = arrivals sender identifier offers :=
  List.filterMap_cons_none ho

theorem arrivals_eq_nil {offers : List Offer} (h : ∀ o ∈ offers, o.isFor sender identifier = false) :
    arrivals sender identifier offers = [] :=
  List.filterMap_eq_nil_iff.2 fun o ho => isFor_eq_false.1 (h o ho)

end Offer

theorem Arrival.Covers.mono {n : Nat} {arrivals arrivals' : List Arrival} (h : Covers n arrivals)
    (hsubset : arrivals ⊆ arrivals') : Covers n arrivals' := fun i hi =>
  let ⟨a, ha, hindex⟩ := h i hi
  ⟨a, hsubset ha, hindex⟩

namespace Buffer

variable {limits : Limits} {sender lead : String} {version identifier : UInt8} {data : Bytes}
  {parts : List Part} {opened k : Nat} {arrivals : List Arrival} {a : Arrival} {o : Offer}
  {buffer : Buffer}

/-- One partial has gathered what arrived, and at most `k` others in the buffer were
    opened since. -/
structure Gathers (sender : String) (identifier : UInt8) (opened : Nat) (arrivals : List Arrival)
    (k : Nat) (buffer : Buffer) : Prop where
  found : buffer.find? sender identifier = Partial.gathered? opened arrivals
  few : buffer.countP (opened ≤ ·.opened) ≤ k + 1

/-- The first part opens the partial, later than all others. -/
theorem IsFree.gathers (h : buffer.IsFree sender identifier)
    (hsplit : Part.IsSplit parts lead version identifier data)
    (holder : ∀ q ∈ buffer, q.opened < o.time) (ha : a.Brings sender parts)
    (ho : a.message = o.message) (hmissing : ¬Arrival.Covers parts.length [a]) :
    (buffer.offer limits o.time o.message).2.Gathers sender identifier o.time [a] 0 := by
  have hgathered : buffer.find? sender identifier = Partial.gathered? o.time [] := h
  have halive : ([] : List Arrival) ≠ [] → o.time - o.time < limits.expiry.nanoseconds :=
    fun hne => absurd rfl hne
  obtain ⟨buffer', hoffer, hfound⟩ := hsplit.offer_awaiting ha (List.forall_mem_nil _) hgathered
    (fun _ => rfl) halive hmissing
  have hadded := countP_offer_le limits o.time o.time o.message buffer
  have hnone : buffer.countP (o.time ≤ ·.opened) = 0 :=
    List.countP_eq_zero.2 fun q hq => by simpa using holder q hq
  rw [← ho, hoffer] at hadded ⊢
  refine ⟨hfound, ?_⟩
  rw [hnone] at hadded
  split at hadded <;> omega

/-- A part of the message joins the others, and opens no partial. -/
theorem Gathers.joined (h : buffer.Gathers sender identifier opened arrivals k)
    (hsplit : Part.IsSplit parts lead version identifier data) (harrivals : arrivals ≠ [])
    (hbrings : ∀ b ∈ arrivals, b.Brings sender parts) (ha : a.Brings sender parts)
    (ho : a.message = o.message) (halive : o.time - opened < limits.expiry.nanoseconds)
    (hmissing : ¬Arrival.Covers parts.length (arrivals ++ [a])) :
    (buffer.offer limits o.time o.message).2.Gathers sender identifier opened (arrivals ++ [a])
      k := by
  obtain ⟨buffer', hoffer, hfound⟩ := hsplit.offer_awaiting ha hbrings h.found
    (fun hnil => absurd hnil harrivals) (fun _ => halive) hmissing
  have hopens : buffer.opens limits o.time o.message = false := by
    obtain ⟨b, rest, rfl⟩ := List.exists_cons_of_ne_nil harrivals
    have haccepts : (Partial.collecting opened b (b :: rest)).accepts a.part = true :=
      hsplit.accepts_collecting (hbrings b List.mem_cons_self) ha
    have hfind : (buffer.expire limits o.time).find? sender identifier =
        some (Partial.collecting opened b (b :: rest)) :=
      find?_expire h.found (decide_eq_true halive)
    refine Bool.eq_false_iff.2 fun hopens => ?_
    rw [← ho, opens_iff ha.part?, ha.sender, hsplit.identifier_eq _ ha.mem, hfind,
      Option.filter_some, if_pos haccepts] at hopens
    exact nomatch hopens
  have hadded := countP_offer_le limits o.time opened o.message buffer
  rw [if_neg (Bool.eq_false_iff.1 hopens)] at hadded
  rw [← ho, hoffer] at hadded ⊢
  exact ⟨hfound, Nat.le_trans hadded h.few⟩

/-- An offer for others leaves the partial alone, if there is still room for the one
    it opens. -/
theorem Gathers.beside (h : buffer.Gathers sender identifier opened arrivals k)
    (harrivals : arrivals ≠ []) (ho : o.isFor sender identifier = false)
    (halive : o.time - opened < limits.expiry.nanoseconds)
    (hroom : k + buffer.openings limits sender identifier [o] < limits.room) :
    (buffer.offer limits o.time o.message).2.Gathers sender identifier opened arrivals
      (k + buffer.openings limits sender identifier [o]) := by
  obtain ⟨b, rest, rfl⟩ := List.exists_cons_of_ne_nil harrivals
  have hfew := h.few
  have hadded := countP_offer_le limits o.time opened o.message buffer
  simp only [openings, ho, Bool.not_false, Bool.and_true, Nat.add_zero] at hroom ⊢
  refine ⟨?_, by omega⟩
  refine find?_offer h.found (Offer.isFor_eq_false.1 ho) (decide_eq_true halive) fun hopens => ?_
  rw [if_pos hopens] at hroom
  have hopened : (Partial.collecting opened b (b :: rest)).opened = opened := rfl
  rw [hopened]
  omega

/-- The partial gathers what all these offers bring. -/
theorem Gathers.after (h : buffer.Gathers sender identifier opened arrivals k)
    (hsplit : Part.IsSplit parts lead version identifier data) (harrivals : arrivals ≠ [])
    (hbrings : ∀ b ∈ arrivals, b.Brings sender parts) {offers : List Offer}
    (hoffers : ∀ a ∈ Offer.arrivals sender identifier offers, a.Brings sender parts)
    (halive : ∀ o ∈ offers, o.time - opened < limits.expiry.nanoseconds)
    (hroom : k + buffer.openings limits sender identifier offers < limits.room)
    (hmissing : ¬Arrival.Covers parts.length
      (arrivals ++ Offer.arrivals sender identifier offers)) :
    ∃ k', (buffer.after limits offers).Gathers sender identifier opened
      (arrivals ++ Offer.arrivals sender identifier offers) k' := by
  induction offers generalizing buffer arrivals k with
  | nil => exact ⟨k, by rwa [Offer.arrivals, List.filterMap_nil, List.append_nil]⟩
  | cons o offers ih =>
    have halive' : ∀ o ∈ offers, o.time - opened < limits.expiry.nanoseconds := fun o ho =>
      halive o (List.mem_cons_of_mem _ ho)
    have hopenings : buffer.openings limits sender identifier (o :: offers) =
        buffer.openings limits sender identifier [o] +
          (buffer.offer limits o.time o.message).2.openings limits sender identifier offers :=
      openings_append [o] offers buffer
    rw [hopenings, ← Nat.add_assoc] at hroom
    cases ho : o.message.arrivalFor? sender identifier with
    | none =>
      rw [Offer.arrivals_cons_none ho] at hoffers hmissing ⊢
      exact ih (h.beside harrivals (Offer.isFor_eq_false.2 ho) (halive o List.mem_cons_self)
        (by omega)) harrivals hbrings hoffers halive' hroom hmissing
    | some a =>
      have hmessage := (Message.arrivalFor?_eq_some.1 ho).1
      rw [Offer.arrivals_cons_some ho] at hoffers hmissing ⊢
      rw [List.append_cons] at hmissing ⊢
      have ha := hoffers a List.mem_cons_self
      refine ih (h.joined hsplit harrivals hbrings ha hmessage (halive o List.mem_cons_self)
        fun hcovers => hmissing (hcovers.mono (List.subset_append_left _ _))) (by simp) ?_
        (fun b hb => hoffers b (List.mem_cons_of_mem _ hb)) halive' (by omega) hmissing
      simpa [or_imp, forall_and] using And.intro hbrings ha

theorem IsFree.after (h : buffer.IsFree sender identifier) {offers : List Offer}
    (hoffers : ∀ o ∈ offers, o.isFor sender identifier = false) :
    (buffer.after limits offers).IsFree sender identifier := by
  induction offers generalizing buffer with
  | nil => exact h
  | cons o offers ih =>
    exact ih (h.offer (Offer.isFor_eq_false.1 (hoffers o List.mem_cons_self))) fun o' ho' =>
      hoffers o' (List.mem_cons_of_mem _ ho')

end Buffer

/-- A partial was opened at the time of a call. -/
theorem History.exists_opened {limits : Limits} {calls : List Call} {buffer : Buffer} {q : Partial}
    (h : History limits calls buffer) (hq : q ∈ buffer) : ∃ c ∈ calls, q.opened = c.time := by
  obtain ⟨first, since, hsuffix, hbuilt⟩ := h.isBuiltBy q hq
  obtain ⟨a, -, hopened⟩ := hbuilt.opened
  exact ⟨first, hsuffix.subset List.mem_cons_self, congrArg Partial.opened hopened⟩

/-- Offers on a clock that goes forward, to a buffer that holds nothing for the sender
    and the identifier. Those for them, of which `last` is one, bring these texts and
    nothing else. Since the first of those, less time has gone by than a partial may
    wait, and fewer partials were opened for others than there is room for. -/
structure IsTransfer (limits : Limits) (sender : String) (identifier : UInt8)
    (texts : List String) (earlier : List Call) (start : Buffer) (offers : List Offer)
    (last : Offer) : Prop where
  reached : History limits earlier start
  free : start.IsFree sender identifier
  clock : (earlier.map (·.time) ++ (offers ++ [last]).map (·.time)).Pairwise (· < ·)
  bodies : ∀ o ∈ offers ++ [last], o.isFor sender identifier = true → o.message.body ∈ texts
  isFor : last.isFor sender identifier = true
  since : ∀ {before after : List Offer} {first : Offer}, offers = before ++ first :: after →
    (∀ o ∈ before, o.isFor sender identifier = false) → first.isFor sender identifier = true →
      last.time - first.time < limits.expiry.nanoseconds ∧
        (start.after limits (before ++ [first])).openings limits sender identifier after <
          limits.room

/-- The answer to the last offer: as long as a part is missing, how many different ones
    were offered; and if none is missing any more, the whole text, with the timestamp of
    the latest copy of part 0. -/
structure IsCollected (limits : Limits) (sender : String) (identifier : UInt8) (n : Nat)
    (whole : String) (start : Buffer) (offers : List Offer) (last : Offer) : Prop where
  awaiting : ¬Arrival.Covers n (Offer.arrivals sender identifier (offers ++ [last])) →
    ((start.after limits offers).offer limits last.time last.message).1 =
      .awaiting identifier
        (Arrival.indices (Offer.arrivals sender identifier (offers ++ [last]))).length n
  complete : ¬Arrival.Covers n (Offer.arrivals sender identifier offers) →
    Arrival.Covers n (Offer.arrivals sender identifier (offers ++ [last])) →
      ∃ zeroth, latest? 0 (Offer.arrivals sender identifier (offers ++ [last])) = some zeroth ∧
        ((start.after limits offers).offer limits last.time last.message).1 =
          .complete (.plain sender whole zeroth.message.timestamp) ∧
        ((start.after limits offers).offer limits last.time last.message).2.IsFree sender identifier

namespace IsTransfer

variable {limits : Limits} {sender lead : String} {version identifier : UInt8} {data : Bytes}
  {parts : List Part} {earlier : List Call} {start : Buffer} {offers : List Offer} {last : Offer}

theorem brings
    (h : IsTransfer limits sender identifier (parts.map Part.encode) earlier start offers last)
    (hparts : ∀ p ∈ parts, p.IsWellFormed) :
    ∀ a ∈ Offer.arrivals sender identifier (offers ++ [last]), a.Brings sender parts := by
  intro a ha
  obtain ⟨o, ho, harrival⟩ := List.mem_filterMap.1 ha
  obtain ⟨hmessage, hpart, hsender, -⟩ := Message.arrivalFor?_eq_some.1 harrival
  obtain ⟨p, hp, hbody⟩ := List.mem_map.1
    (h.bodies o ho (by rw [Offer.isFor, harrival, Option.isSome_some]))
  have hparse := (Message.part?_eq_some.1 hpart).1
  rw [← hbody, Part.parse_encode (hparts p hp)] at hparse
  cases hparse
  exact ⟨hmessage ▸ hsender, hmessage ▸ hpart, hp⟩

section First

variable {before after : List Offer} {first : Offer} {a : Arrival}

/-- Before the first part is offered, all partials were opened earlier. -/
theorem opened_lt {texts : List String}
    (h : IsTransfer limits sender identifier texts earlier start (before ++ first :: after) last) :
    ∀ q ∈ start.after limits before, q.opened < first.time := by
  intro q hq
  obtain ⟨calls, hcalls, htimes⟩ := h.reached.extend before
  obtain ⟨c, hc, hopened⟩ := hcalls.exists_opened hq
  have hclock : (earlier.map (·.time) ++ before.map (·.time) ++
      first.time :: (after ++ [last]).map (·.time)).Pairwise (· < ·) := by
    simpa using h.clock
  have hmem : c.time ∈ earlier.map (·.time) ++ before.map (·.time) := by
    rw [← htimes, ← List.map_append]
    exact List.mem_map_of_mem hc
  exact hopened ▸ (List.pairwise_append.1 hclock).2.2 c.time hmem first.time List.mem_cons_self

/-- From the first part up to the last offer, the clock moves on less than a partial may
    wait. -/
theorem young
    {texts : List String}
    (h : IsTransfer limits sender identifier texts earlier start (before ++ first :: after) last)
    (hyoung : last.time - first.time < limits.expiry.nanoseconds) :
    ∀ o ∈ after, o.time - first.time < limits.expiry.nanoseconds := by
  intro o ho
  obtain ⟨-, htimes, -⟩ := List.pairwise_append.1 h.clock
  rw [List.map_append] at htimes
  have hlt := (List.pairwise_append.1 htimes).2.2 o.time
    (List.mem_map_of_mem (List.mem_append_right _ (List.mem_cons_of_mem _ ho))) last.time
    List.mem_cons_self
  omega

/-- From the first part up to the last offer, the parts are gathered. -/
theorem gathers
    (h : IsTransfer limits sender identifier (parts.map Part.encode) earlier start
      (before ++ first :: after) last)
    (hsplit : Part.IsSplit parts lead version identifier data)
    (hparts : ∀ p ∈ parts, p.IsWellFormed)
    (hbefore : ∀ o ∈ before, o.isFor sender identifier = false)
    (ha : first.message.arrivalFor? sender identifier = some a)
    (hmissing : ¬Arrival.Covers parts.length (a :: Offer.arrivals sender identifier after)) :
    ∃ k, (start.after limits (before ++ first :: after)).Gathers sender identifier first.time
      (a :: Offer.arrivals sender identifier after) k := by
  have hbrings := h.brings hparts
  rw [Offer.arrivals_append, Offer.arrivals_append, Offer.arrivals_eq_nil hbefore,
    Offer.arrivals_cons_some ha, List.nil_append, List.cons_append, List.forall_mem_cons,
    List.forall_mem_append] at hbrings
  obtain ⟨hfirst, hafter, -⟩ := hbrings
  obtain ⟨hyoung, hroom⟩ := h.since rfl hbefore (by rw [Offer.isFor, ha, Option.isSome_some])
  have hopened : ((start.after limits before).offer limits first.time first.message).2.Gathers
      sender identifier first.time [a] 0 :=
    (h.free.after hbefore).gathers hsplit h.opened_lt hfirst (Message.arrivalFor?_eq_some.1 ha).1
      fun hcovers => hmissing (hcovers.mono (List.subset_append_left [a] _))
  rw [Buffer.after_append] at hroom ⊢
  exact hopened.after hsplit (List.cons_ne_nil a []) (by simpa using hfirst) hafter
    (h.young hyoung) (by rwa [Nat.zero_add]) hmissing

end First

/-- Before the last offer, the parts offered so far are gathered. -/
theorem find?_eq
    (h : IsTransfer limits sender identifier (parts.map Part.encode) earlier start offers last)
    (hsplit : Part.IsSplit parts lead version identifier data)
    (hparts : ∀ p ∈ parts, p.IsWellFormed)
    (hmissing : ¬Arrival.Covers parts.length (Offer.arrivals sender identifier offers)) :
    ∃ opened, (start.after limits offers).find? sender identifier =
        Partial.gathered? opened (Offer.arrivals sender identifier offers) ∧
      (Offer.arrivals sender identifier offers = [] → opened = last.time) ∧
      (Offer.arrivals sender identifier offers ≠ [] →
        last.time - opened < limits.expiry.nanoseconds) := by
  cases hfirst : offers.find? (·.isFor sender identifier) with
  | none =>
    have hnone : ∀ o ∈ offers, o.isFor sender identifier = false := by
      simpa using List.find?_eq_none.1 hfirst
    rw [Offer.arrivals_eq_nil hnone]
    exact ⟨last.time, h.free.after hnone, fun _ => rfl, fun hne => absurd rfl hne⟩
  | some first =>
    obtain ⟨hfor, before, after, rfl, hbefore⟩ := List.find?_eq_some_iff_append.1 hfirst
    have hbefore : ∀ o ∈ before, o.isFor sender identifier = false := by simpa using hbefore
    obtain ⟨a, ha⟩ := Option.isSome_iff_exists.1 hfor
    rw [Offer.arrivals_append, Offer.arrivals_eq_nil hbefore, Offer.arrivals_cons_some ha,
      List.nil_append] at hmissing ⊢
    obtain ⟨k, hgathers⟩ := h.gathers hsplit hparts hbefore ha hmissing
    exact ⟨first.time, hgathers.found, fun hnil => absurd hnil (List.cons_ne_nil _ _),
      fun _ => (h.since rfl hbefore hfor).1⟩

/-- The parts of a split body are collected, whatever is offered in between. -/
theorem collects_of_split {body : String} {size : Nat} {texts : List String}
    (h : IsTransfer limits sender identifier texts earlier start offers last)
    (hsplit : Part.splitBody body identifier size = .ok texts) :
    ∃ kind lead payload, Wire.matchLead? body = some (kind, lead) ∧
      Wire.decodePayload body = .ok payload ∧
        IsCollected limits sender identifier texts.length (Wire.encodeBody kind payload) start
          offers last := by
  obtain ⟨kind, lead, version, data, parts, hlead, hpayload, hparts, rfl⟩ :=
    Part.splitBody_eq_ok hsplit
  have hlead' := Wire.mem_leads_of_matchLead? hlead
  have hwell : ∀ p ∈ parts, p.IsWellFormed := fun p hp => hparts.isWellFormed ⟨kind, hlead'⟩ hp
  obtain ⟨a, ha⟩ := Option.isSome_iff_exists.1 h.isFor
  have hmessage := (Message.arrivalFor?_eq_some.1 ha).1
  have harrivals : Offer.arrivals sender identifier (offers ++ [last]) =
      Offer.arrivals sender identifier offers ++ [a] := by
    rw [Offer.arrivals_append, Offer.arrivals_cons_some ha]
    rfl
  have hbrings := h.brings hwell
  rw [harrivals, List.forall_mem_append, List.forall_mem_singleton] at hbrings
  obtain ⟨hdone, hlast⟩ := hbrings
  refine ⟨kind, lead, version :: data, hlead, hpayload, ?_⟩
  rw [List.length_map]
  constructor
  case awaiting =>
    rw [harrivals]
    intro hmissing
    obtain ⟨opened, hfind, hopened, halive⟩ := h.find?_eq hparts hwell fun hcovers =>
      hmissing (hcovers.mono (List.subset_append_left _ _))
    obtain ⟨buffer, hoffer, -⟩ := hparts.offer_awaiting hlast hdone hfind hopened halive hmissing
    rw [← hmessage, hoffer]
  case complete =>
    rw [harrivals]
    intro hmissing hcovers
    obtain ⟨opened, hfind, hopened, halive⟩ := h.find?_eq hparts hwell hmissing
    obtain ⟨zeroth, hzeroth⟩ := hcovers.exists_latest? hparts.length_pos
    obtain ⟨buffer, hoffer, hfree⟩ :=
      hparts.offer_complete hlast hdone hfind hopened halive hcovers hzeroth
    rw [← hmessage, hoffer, Wire.kindOfLead_eq hlead']
    exact ⟨zeroth, hzeroth, rfl, hfree⟩

/-- The second half comes twice, and a part from someone else between the copies. -/
theorem collects_halves :
    ∃ (limits : Limits) (offers : List Offer) (last : Offer),
      Part.splitBody (Wire.encodeBody .secureCiphertext [2, 10, 11]) 7 1 =
          .ok [(Part.half 0 10).encode, (Part.half 1 11).encode] ∧
        offers.map (·.message.sender) = ["alice", "bob", "alice"] ∧
        IsTransfer limits "alice" 7 [(Part.half 0 10).encode, (Part.half 1 11).encode] [] []
          offers last ∧
        ∃ kind lead payload,
          Wire.matchLead? (Wire.encodeBody .secureCiphertext [2, 10, 11]) = some (kind, lead) ∧
            Wire.decodePayload (Wire.encodeBody .secureCiphertext [2, 10, 11]) = .ok payload ∧
              IsCollected limits "alice" 7 2 (Wire.encodeBody kind payload) [] offers last := by
  let limits : Limits := { maxPending := 3 }
  let part (time : Nat) (sender : String) (p : Part) : Offer :=
    { time, message := .plain sender p.encode 5 }
  let offers : List Offer :=
    [part 0 "alice" (.half 1 11), part 1 "bob" (.half 0 10), part 2 "alice" (.half 1 11)]
  let last := part 3 "alice" (.half 0 10)
  have h : IsTransfer limits "alice" 7 [(Part.half 0 10).encode, (Part.half 1 11).encode] [] []
      offers last :=
    { reached := .nil
      free := rfl
      clock := by simp [offers, last, part]
      bodies := by simp [offers, last, part, Message.plain]
      isFor := by
        have hpart : last.message.part? = some (Part.half 0 10) :=
          Message.part?_half (by decide) 10 "alice" 5
        exact Option.isSome_iff_exists.2 ⟨_, Message.arrivalFor?_self hpart⟩
      since := fun {before after first} hoffers _ _ => by
        have hlength := congrArg List.length hoffers
        have hle : (Buffer.after limits (before ++ [first]) []).openings limits "alice" 7 after ≤
            after.length := Buffer.openings_le_length _ _
        have hyoung : last.time - first.time < limits.expiry.nanoseconds :=
          Nat.lt_of_le_of_lt (Nat.sub_le _ _) (by decide)
        have hroom : limits.room = 3 := by decide
        simp [offers] at hlength
        exact ⟨hyoung, by omega⟩ }
  exact ⟨limits, offers, last, Part.splitBody_halves 10 11, rfl, h,
    h.collects_of_split (Part.splitBody_halves 10 11)⟩

end IsTransfer

end SecureInbox
