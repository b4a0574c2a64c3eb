import Mathlib.Data.List.Induction
import Mathlib.Data.List.Perm.Basic
import SecureInbox.Mailbox.Memory
import SecureInbox.Proofs.Intake.Event
import SecureInbox.Proofs.Part.Shipment
import SecureInbox.Session.Ledger

/-!
# Splitting a message makes no difference

A special body that is cut into parts, each delivered by an event of its own and
in any order, comes to what the whole body in one event would have come to
(`Intake.deliversWhole_of_split`): all events but the last only wait, and the
last one has the result of the single event and leaves the desk as that would.
The whole body is the canonical one, without padding or blanks at its end, and
has the timestamp of the event that brought part 0.
-/

namespace SecureInbox

variable {μ σ : Type}

/-- Without a tag, the fragments of an event are joined. -/
theorem Buffer.assemble_untagged (limits : Limits) (now : Nat) (f : Fragment) (rest : List Fragment)
    (buffer : Buffer) :
    buffer.assemble limits now (f :: rest) none =
      (.ok (buffer.assembleJoined limits now (Message.join f (f :: rest))).1,
        (buffer.assembleJoined limits now (Message.join f (f :: rest))).2) := by
  cases rest <;> simp only [assemble]

namespace Event

/-- The time of receipt of the first fragment. -/
def timestamp (e : Event) : UInt64 := (e.fragments.head?.map (·.timestamp)).getD 0

/-- The event delivers a text from a sender, in one or more fragments and without
    a tag. -/
structure Carries (sender : String) (e : Event) (text : String) : Prop where
  untagged : e.declared.tag? = .ok none
  sender : e.fragments.head?.map (·.sender) = some sender
  text : e.fragments.flatMap (fun f => f.body.toList) = text.toList

/-- The event that delivers a text in a single fragment. -/
def single (now : Nat) (secret : Option MasterSecret) (sender text : String)
    (timestamp : UInt64) : Event :=
  { time := now, secret, fragments := [{ sender, body := text, timestamp }] }

theorem carries_single (now : Nat) (secret : Option MasterSecret) (sender text : String)
    (timestamp : UInt64) : Carries sender (single now secret sender text timestamp) text where
  untagged := rfl
  sender := rfl
  text := by simp [single]

variable {e : Event} {sender text : String}

theorem Carries.assemble (h : e.Carries sender text) (limits : Limits) (buffer : Buffer) :
    buffer.assemble limits e.time e.fragments none =
      (.ok (buffer.assembleJoined limits e.time (.plain sender text e.timestamp)).1,
        (buffer.assembleJoined limits e.time (.plain sender text e.timestamp)).2) := by
  obtain ⟨-, hsender, htext⟩ := h
  rw [timestamp]
  cases hfragments : e.fragments with
  | nil =>
    rw [hfragments] at hsender
    exact nomatch hsender
  | cons f rest =>
    have hjoin : Message.join f (f :: rest) = .plain sender text f.timestamp := by
      rw [hfragments] at hsender htext
      rw [Message.join, htext, String.ofList_toList, ← Option.some.inj hsender]
    rw [Buffer.assemble_untagged, hjoin]
    rfl

end Event

namespace Intake

variable (intake : Intake μ σ) {e : Event} {sender text : String} {r : Receiver μ σ} {m : Message}
  {buffer : Buffer}

theorem take_of_complete (h : e.Carries sender text) (hspecial : Wire.isSpecial text = true)
    (hoffer : r.buffer.offer intake.limits e.time (.plain sender text e.timestamp) =
      (.complete m, buffer)) :
    intake.take e r =
      ((intake.deliver e.secret (m.classify .sniffed) r.desk).1,
        { buffer, desk := (intake.deliver e.secret (m.classify .sniffed) r.desk).2 }) := by
  have hspecial' : Wire.isSpecial (Message.plain sender text e.timestamp).body = true := hspecial
  simp only [take_eq, h.untagged, receive, h.assemble, Buffer.assembleJoined, if_pos hspecial',
    hoffer]

theorem take_of_awaiting (h : e.Carries sender text) (hspecial : Wire.isSpecial text = true)
    {identifier : UInt8} {received expected : Nat}
    (hoffer : r.buffer.offer intake.limits e.time (.plain sender text e.timestamp) =
      (.awaiting identifier received expected, buffer)) :
    intake.take e r = (.ok (.awaitingParts identifier received expected), { r with buffer }) := by
  have hspecial' : Wire.isSpecial (Message.plain sender text e.timestamp).body = true := hspecial
  simp only [take_eq, h.untagged, receive, h.assemble, Buffer.assembleJoined, if_pos hspecial',
    hoffer]

/-- A whole message in one event is delivered at once, past the buffer. -/
theorem take_single {kind : Kind} {lead : String} (hlead : (kind, lead) ∈ Wire.leads)
    (payload : Bytes) (now : Nat) (secret : Option MasterSecret) (timestamp : UInt64) :
    intake.take (.single now secret sender (Wire.encodeBody kind payload) timestamp) r =
      ((intake.deliver secret ((Message.plain sender (Wire.encodeBody kind payload)
          timestamp).classify .sniffed) r.desk).1,
        { r with desk := (intake.deliver secret ((Message.plain sender
          (Wire.encodeBody kind payload) timestamp).classify .sniffed) r.desk).2 }) := by
  refine intake.take_of_complete (Event.carries_single now secret sender _ timestamp)
    (Wire.isSpecial_of_matchLead? (Wire.matchLead?_encodeBody hlead payload)) ?_
  have hbody : (Message.plain sender (Wire.encodeBody kind payload) timestamp).body =
    Wire.encodeBody kind payload := rfl
  simp only [Event.single, Event.timestamp, List.head?_cons, Option.map_some, Option.getD_some,
    Buffer.offer, hbody, Part.parse_encodeBody]

/-- Events, the last of them apart, only wait; the last one comes to what a
    single event with the whole text would have come to at the start. -/
structure DeliversWhole (intake : Intake μ σ) (r : Receiver μ σ) (sender : String)
    (identifier : UInt8) (text : String) (timestamp : UInt64) (events : List Event) : Prop where
  awaiting : ∀ {before after : List Event} {e : Event}, events = before ++ e :: after →
    after ≠ [] →
      (intake.take e (intake.run before r)).1 =
          .ok (.awaitingParts identifier (before.length + 1) events.length) ∧
        (intake.take e (intake.run before r)).2.desk = r.desk
  last : ∀ {before : List Event} {e : Event}, events = before ++ [e] → ∀ now,
    (intake.take e (intake.run before r)).1 =
        (intake.take (.single now e.secret sender text timestamp) r).1 ∧
      (intake.take e (intake.run before r)).2.desk =
          (intake.take (.single now e.secret sender text timestamp) r).2.desk ∧
        (intake.take e (intake.run before r)).2.buffer.IsFree sender identifier

end Intake

/-- The part that an event brings, as it arrives. -/
def Event.arrival (sender : String) (z : Event × Part) : Arrival where
  message := .plain sender z.2.encode z.1.timestamp
  part := z.2

/-- The events, each with its part, deliver a message in parts; `ordered` has
    them in the order of the parts. -/
structure IsDelivery (limits : Limits) (sender lead : String) (version identifier : UInt8)
    (data : Bytes) (opened : Nat) (ordered deliveries : List (Event × Part)) : Prop where
  lead_mem : ∃ kind, (kind, lead) ∈ Wire.leads
  split : Part.IsSplit (ordered.map (·.2)) lead version identifier data
  perm : deliveries.Perm ordered
  carries : ∀ z ∈ ordered, z.1.Carries sender z.2.encode
  opened_eq : ∀ z, deliveries[0]? = some z → opened = z.1.time
  young : ∀ z ∈ deliveries, z.1.time - opened < limits.expiry.nanoseconds

namespace IsDelivery

open Event (arrival)

variable {intake : Intake μ σ} {sender lead : String} {version identifier : UInt8} {data : Bytes}
  {opened : Nat} {ordered deliveries done todo : List (Event × Part)} {z : Event × Part}
  {r : Receiver μ σ}

theorem isWellFormed
    (h : IsDelivery intake.limits sender lead version identifier data opened ordered deliveries)
    (hz : z ∈ ordered) : z.2.IsWellFormed :=
  h.split.isWellFormed h.lead_mem (List.mem_map_of_mem hz)

theorem isShipment
    (h : IsDelivery intake.limits sender lead version identifier data opened ordered deliveries) :
    IsShipment sender lead version identifier data (ordered.map (arrival sender))
      (deliveries.map (arrival sender)) where
  split := by
    rw [List.map_map]
    exact h.split
  perm := h.perm.map _
  parse a ha := by
    obtain ⟨z, hz, rfl⟩ := List.mem_map.1 ha
    exact Part.parse_encode (h.isWellFormed hz)
  sender a ha := by
    obtain ⟨z, hz, rfl⟩ := List.mem_map.1 ha
    rfl

theorem carries_of_mem
    (h : IsDelivery intake.limits sender lead version identifier data opened ordered deliveries)
    (hz : z ∈ deliveries) :
    z.1.Carries sender z.2.encode ∧ Wire.isSpecial z.2.encode = true :=
  have hz := h.perm.mem_iff.1 hz
  ⟨h.carries z hz, Part.isSpecial_encode (h.isWellFormed hz)⟩

theorem opened_eq_of_map
    (h : IsDelivery intake.limits sender lead version identifier data opened ordered
      (done ++ z :: todo)) (hdone : done.map (arrival sender) = []) : opened = z.1.time := by
  cases List.map_eq_nil_iff.1 hdone
  exact h.opened_eq z rfl

/-- An event of a delivery waits if it is not the last. -/
theorem take_awaiting
    (h : IsDelivery intake.limits sender lead version identifier data opened ordered
      (done ++ z :: todo))
    (hgathered : r.buffer.find? sender identifier =
      Partial.gathered? opened (done.map (arrival sender))) (htodo : todo ≠ []) :
    ∃ buffer, intake.take z.1 r =
        (.ok (.awaitingParts identifier (done.length + 1) ordered.length), { r with buffer }) ∧
      buffer.find? sender identifier =
        Partial.gathered? opened ((done ++ [z]).map (arrival sender)) := by
  have hmem : z ∈ done ++ z :: todo := by simp
  obtain ⟨hcarries, hspecial⟩ := h.carries_of_mem hmem
  have hship := h.isShipment
  rw [List.map_append, List.map_cons] at hship
  obtain ⟨buffer, hoffer, hfind⟩ := hship.offer_awaiting hgathered h.opened_eq_of_map
    (fun _ => h.young z hmem) (by simpa using htodo)
  rw [List.length_map, List.length_map] at hoffer
  refine ⟨buffer, intake.take_of_awaiting hcarries hspecial hoffer, ?_⟩
  rw [hfind, List.map_append, List.map_singleton]

/-- While events of a delivery are missing, nothing happens at the desk. -/
theorem run_awaiting
    (h : IsDelivery intake.limits sender lead version identifier data opened ordered (done ++ todo))
    (hfree : r.buffer.IsFree sender identifier) (htodo : todo ≠ []) :
    (intake.run (done.map (·.1)) r).desk = r.desk ∧
      (intake.run (done.map (·.1)) r).buffer.find? sender identifier =
        Partial.gathered? opened (done.map (arrival sender)) := by
  -- By induction from the end, since an event is taken in after those before it.
  induction done using List.reverseRecOn generalizing todo with
  | nil => exact ⟨rfl, hfree⟩
  | append_singleton done z ih =>
    rw [List.append_assoc] at h
    obtain ⟨hdesk, hgathered⟩ := ih h (by simp)
    obtain ⟨buffer, htake, hfind⟩ := h.take_awaiting hgathered htodo
    rw [List.map_append, Intake.run_append, List.map_singleton, Intake.run_cons, htake]
    exact ⟨hdesk, hfind⟩

/-- The last event of a delivery comes to what the whole message comes to. -/
theorem take_last
    (h : IsDelivery intake.limits sender lead version identifier data opened ordered (done ++ [z]))
    (hgathered : r.buffer.find? sender identifier =
      Partial.gathered? opened (done.map (arrival sender))) {first : Event × Part}
    (hfirst : ordered[0]? = some first) :
    ∃ buffer, buffer.IsFree sender identifier ∧
      ∀ {kind}, (kind, lead) ∈ Wire.leads →
        intake.take z.1 r =
          ((intake.deliver z.1.secret ((Message.plain sender
              (Wire.encodeBody kind (version :: data)) first.1.timestamp).classify .sniffed)
              r.desk).1,
            { buffer, desk := (intake.deliver z.1.secret ((Message.plain sender
              (Wire.encodeBody kind (version :: data)) first.1.timestamp).classify .sniffed)
              r.desk).2 }) := by
  have hmem : z ∈ done ++ [z] := by simp
  obtain ⟨hcarries, hspecial⟩ := h.carries_of_mem hmem
  have hship := h.isShipment
  rw [List.map_append, List.map_singleton] at hship
  obtain ⟨buffer, hoffer, hfree⟩ := hship.offer_last hgathered h.opened_eq_of_map
    (fun _ => h.young z hmem) (by rw [List.getElem?_map, hfirst]; rfl)
  refine ⟨buffer, hfree, fun hlead => ?_⟩
  rw [Wire.kindOfLead_eq hlead] at hoffer
  exact intake.take_of_complete hcarries hspecial hoffer

/-- A delivery comes to what the whole message would have come to. -/
theorem deliversWhole
    (h : IsDelivery intake.limits sender lead version identifier data opened ordered deliveries)
    (hfree : r.buffer.IsFree sender identifier) {first : Event × Part}
    (hfirst : ordered[0]? = some first) {kind : Kind} (hlead : (kind, lead) ∈ Wire.leads) :
    intake.DeliversWhole r sender identifier (Wire.encodeBody kind (version :: data))
      first.1.timestamp (deliveries.map (·.1)) where
  awaiting {before after e} hevents hafter := by
    obtain ⟨done, rest, rfl, rfl, hrest⟩ := List.map_eq_append_iff.1 hevents
    obtain ⟨z, todo, rfl, rfl, rfl⟩ := List.map_eq_cons_iff.1 hrest
    have htodo : todo ≠ [] := fun htodo => hafter (by rw [htodo]; rfl)
    obtain ⟨hdesk, hgathered⟩ := h.run_awaiting hfree (List.cons_ne_nil z todo)
    obtain ⟨buffer, htake, -⟩ := h.take_awaiting hgathered htodo
    rw [htake, List.length_map, List.length_map, h.perm.length_eq]
    exact ⟨rfl, hdesk⟩
  last {before e} hevents now := by
    obtain ⟨done, rest, rfl, rfl, hrest⟩ := List.map_eq_append_iff.1 hevents
    obtain ⟨z, todo, rfl, rfl, htodo⟩ := List.map_eq_cons_iff.1 hrest
    cases List.map_eq_nil_iff.1 htodo
    obtain ⟨hdesk, hgathered⟩ := h.run_awaiting hfree (List.cons_ne_nil z [])
    obtain ⟨buffer, hfree', htake⟩ := h.take_last hgathered hfirst
    rw [htake hlead, intake.take_single hlead, hdesk]
    exact ⟨rfl, rfl, hfree'⟩

end IsDelivery

/-- What is known of all events from the first and the last is known of each. -/
theorem Event.young_of_last {events : List Event} {first : Event} {limit : Nat}
    (htimes : events.Pairwise fun e e' => e.time < e'.time)
    (hyoung : ∀ e', events.getLast? = some e' → e'.time < first.time + limit) :
    ∀ e ∈ events, e.time < first.time + limit := by
  obtain rfl | ⟨init, last, rfl⟩ := List.eq_nil_or_concat events
  · exact nofun
  · rw [List.concat_eq_append] at htimes hyoung ⊢
    have hlast := hyoung last (by simp)
    obtain ⟨-, -, hbefore⟩ := List.pairwise_append.1 htimes
    intro e he
    rcases List.mem_append.1 he with he | he
    · exact Nat.lt_trans (hbefore e he last List.mem_cons_self) hlast
    · rwa [List.mem_singleton.1 he]

/-- Events that carry the parts of a split body, in any order, come to what the
    canonical body in a single event would have come to. -/
theorem Intake.deliversWhole_of_split (intake : Intake μ σ) (r : Receiver μ σ)
    {body sender : String} {identifier : UInt8} {size : Nat} {texts : List String} {first : Event}
    {others events : List Event}
    (hsplit : Part.splitBody body identifier size = .ok texts)
    (hfree : r.buffer.IsFree sender identifier)
    (hcarries : List.Forall₂ (Event.Carries sender) (first :: others) texts)
    (hperm : events.Perm (first :: others))
    (htimes : events.Pairwise fun e e' => e.time < e'.time)
    (hyoung : ∀ e e', events.head? = some e → events.getLast? = some e' →
      e'.time < e.time + intake.limits.expiry.nanoseconds) :
    ∃ kind lead payload, Wire.matchLead? body = some (kind, lead) ∧
      Wire.decodePayload body = .ok payload ∧
        intake.DeliversWhole r sender identifier (Wire.encodeBody kind payload) first.timestamp
          events := by
  obtain ⟨kind, lead, version, data, parts, hlead, hpayload, hparts, rfl⟩ :=
    Part.splitBody_eq_ok hsplit
  have hlead' := Wire.mem_leads_of_matchLead? hlead
  have hcarries' := List.forall₂_map_right_iff.1 hcarries
  -- every event with the part it brings, in the order of the parts and as they come
  have hevents : ((first :: others).zip parts).map (·.1) = first :: others :=
    List.map_fst_zip (Nat.le_of_eq hcarries'.length_eq)
  have hparts' : ((first :: others).zip parts).map (·.2) = parts :=
    List.map_snd_zip (Nat.le_of_eq hcarries'.length_eq.symm)
  obtain ⟨deliveries, rfl, hperm'⟩ : ∃ deliveries : List (Event × Part),
      events = deliveries.map (·.1) ∧ deliveries.Perm ((first :: others).zip parts) := by
    rw [← hevents, ← congrFun (congrFun (List.eq_map_comp_perm Prod.fst) events) _] at hperm
    exact hperm
  cases parts with
  | nil => exact nomatch hcarries'
  | cons part parts =>
    cases deliveries with
    | nil => exact nomatch hperm'.length_eq
    | cons z deliveries =>
      have hyoung' := Event.young_of_last htimes fun e' he' => hyoung z.1 e' rfl he'
      have h : IsDelivery intake.limits sender lead version identifier data z.1.time
          ((first :: others).zip (part :: parts)) (z :: deliveries) :=
        { lead_mem := ⟨kind, hlead'⟩
          split := by rwa [hparts']
          perm := hperm'
          carries := fun z hz => List.forall₂_zip hcarries' hz
          opened_eq := fun z' hz' => by cases hz'; rfl
          young := fun z' hz' => by
            have hlt := hyoung' z'.1 (List.mem_map_of_mem hz')
            have hpos : 0 < intake.limits.expiry.nanoseconds := by
              have hlt := hyoung' z.1 List.mem_cons_self
              omega
            omega }
      exact ⟨kind, lead, version :: data, hlead, hpayload, h.deliversWhole hfree rfl hlead'⟩

/-- The second half of a message may come before the first. -/
theorem Intake.deliversWhole_halves :
    ∃ (intake : Intake Mailbox Ledger) (r : Receiver Mailbox Ledger) (first last : Event),
      Part.splitBody (Wire.encodeBody .secureCiphertext [2, 10, 11]) 7 1 =
          .ok [(Part.half 0 10).encode, (Part.half 1 11).encode] ∧
        r.buffer.IsFree "alice" 7 ∧ first.Carries "alice" (Part.half 0 10).encode ∧
        last.Carries "alice" (Part.half 1 11).encode ∧ last.time < first.time ∧
        ∃ kind lead payload,
          Wire.matchLead? (Wire.encodeBody .secureCiphertext [2, 10, 11]) = some (kind, lead) ∧
            Wire.decodePayload (Wire.encodeBody .secureCiphertext [2, 10, 11]) = .ok payload ∧
              intake.DeliversWhole r "alice" 7 (Wire.encodeBody kind payload) first.timestamp
                [last, first] := by
  let intake : Intake Mailbox Ledger :=
    { parties := { messages := Mailbox.store, sessions := Ledger.store } }
  let r : Receiver Mailbox Ledger := { desk := { messages := {}, sessions := {} } }
  let first := Event.single 1 none "alice" (Part.half 0 10).encode 5
  let last := Event.single 0 none "alice" (Part.half 1 11).encode 6
  have hfirst : first.Carries "alice" (Part.half 0 10).encode := Event.carries_single _ _ _ _ _
  have hlast : last.Carries "alice" (Part.half 1 11).encode := Event.carries_single _ _ _ _ _
  have hyoung : ∀ e e', [last, first].head? = some e → [last, first].getLast? = some e' →
      e'.time < e.time + intake.limits.expiry.nanoseconds := by
    rintro e e' ⟨⟩ ⟨⟩
    decide
  exact ⟨intake, r, first, last, Part.splitBody_halves 10 11, rfl, hfirst, hlast, by decide,
    intake.deliversWhole_of_split r (Part.splitBody_halves 10 11) rfl
      (.cons hfirst (.cons hlast .nil)) (.swap first last []) (by simp [first, last, Event.single])
      hyoung⟩

end SecureInbox
