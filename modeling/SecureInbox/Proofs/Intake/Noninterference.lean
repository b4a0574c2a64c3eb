import SecureInbox.Proofs.Intake.Assembly
import SecureInbox.Proofs.Intake.Holdings
import SecureInbox.Proofs.Session.Prekeys

/-!
# Senders do not interfere

What others send makes no difference to a sender: with the events of all others left out,
the results of the sender's own events and what the sender holds in the end are the same
up to the names of messages and threads (`Intake.run_isolatesSenders`). Two things are
common to all senders and have to suffice: the room in the buffer and the prekeys.

The two runs are compared event by event. The receiver that is spared the events of
others stays a *mirror* of the one that takes them all in (`Receiver.Mirrors`):

* an event of the sender has the same result for both (`Receiver.Mirrors.take`);
* an event of anyone else, taken in by one of them only, changes nothing that is compared
  (`Receiver.Mirrors.take_of_ne`).
-/

namespace SecureInbox

open SessionStore (committer)

/-! ## Prekeys that are named and used up -/

/-- The prekey that the message names, if it is a bundle. -/
def Message.prekey? (m : Message) : Option UInt32 :=
  if m.kind = .preKeyBundle then (PreKeyBundle.decode m.body).toOption.map (·.prekey) else none

theorem Message.prekey?_eq_some {m : Message} {x : PreKeyBundle} (hkind : m.kind = .preKeyBundle)
    (hx : PreKeyBundle.decode m.body = .ok x) : m.prekey? = some x.prekey := by
  rw [prekey?, if_pos hkind, hx]
  rfl

/-- The prekey that a plan uses up. -/
def Plan.prekey? (plan : Plan) : Option UInt32 :=
  match plan.material? with
  | some (.bundle x) => some x.prekey
  | _ => none

theorem Plan.prekey?_eq (plan : Plan) (identity : StoredIdentity) :
    (plan.commit? identity).bind Commit.prekey? = plan.prekey? := by
  obtain h | ⟨_ | _, h⟩ := Option.eq_none_or_eq_some plan.material? <;>
    simp only [Plan.commit?, Plan.prekey?, h] <;> rfl

namespace Desk

theorem commits_note (d : Desk Mailbox Ledger) (act : Act) :
    (d.note act).commits = d.commits ++ act.commit?.toList := by
  cases h : act.commit? <;> simp [commits, note, h]

namespace CarriesOut

variable {plan : Plan} {identity : StoredIdentity} {acts : List Act} {d d' : Desk Mailbox Ledger}

theorem commits_eq (h : d.CarriesOut plan identity acts d') :
    d'.commits = d.commits ++ (plan.commit? identity).toList := by
  rw [Desk.commits, h.journal, List.filterMap_append, h.commits, Desk.commits]

/-- Carrying a plan out takes the prekey away that it uses up, and no other. -/
theorem mem_prekeys (h : d.CarriesOut plan identity acts d') (id : UInt32) :
    id ∈ d'.sessions.prekeys ↔ id ∈ d.sessions.prekeys ∧ plan.prekey? ≠ some id := by
  rw [h.sessions, ← plan.prekey?_eq identity]
  cases plan.commit? identity with
  | none => simp
  | some c => exact d.sessions.mem_prekeys_after c id

/-- What a plan uses up is on record for the sender of the message. -/
theorem exists_commit (h : d.CarriesOut plan identity acts d') {id : UInt32}
    (hid : plan.prekey? = some id) :
    ∃ c ∈ d'.commits, committer c = plan.message.sender ∧ c.prekey? = some id := by
  rw [← plan.prekey?_eq identity] at hid
  obtain ⟨c, hc, hid⟩ := Option.bind_eq_some_iff.1 hid
  refine ⟨c, by simp [h.commits_eq, hc], ?_, hid⟩
  obtain ⟨k, -, rfl⟩ := Option.map_eq_some_iff.1 hc
  cases k <;> rfl

end CarriesOut

end Desk

/-! ## Mirrors -/

namespace Desk

/-- Whatever the messages of the sender are renamed to, the sender holds the same at
    both desks, and the prekeys named are the same. -/
structure Mirrors (names : List UInt32) (sender : String) (d d' : Desk Mailbox Ledger) :
    Prop where
  numbered : d.IsNumbered
  numbered' : d'.IsNumbered
  length : (d.messages.identitiesOf sender).length = (d'.messages.identitiesOf sender).length
  holdings : ∀ ρ : Renaming, ρ.Relates sender d.messages d'.messages →
    d'.holdings sender = (d.holdings sender).rename ρ
  prekeys : ∀ id ∈ names, id ∈ d.sessions.prekeys ↔ id ∈ d'.sessions.prekeys

theorem identitiesOf_eq (d : Desk Mailbox Ledger) (sender : String) :
    d.messages.identitiesOf sender = (d.holdings sender).records.map (·.identity) := rfl

namespace Mirrors

variable {names : List UInt32} {sender : String} {d d' : Desk Mailbox Ledger} {m : Message}
  {limits : Limits} {policy : Policy} {secret : Option MasterSecret}

/-- A message of the sender has the same plan at both desks. -/
theorem plan_eq (h : d.Mirrors names m.sender d')
    (hnames : ∀ id, m.prekey? = some id → id ∈ names) :
    d.sessions.plan policy secret m = d'.sessions.plan policy secret m := by
  obtain ⟨ρ, hρ⟩ := Mailbox.exists_renaming h.numbered.messages h.numbered'.messages h.length
  have hsession : d'.sessions.session m.sender = ρ.session (d.sessions.session m.sender) :=
    congrArg Holdings.session (h.holdings ρ hρ)
  refine Ledger.plan_congr ?_ ?_ fun x hkind hx =>
    h.prekeys x.prekey (hnames _ (Message.prekey?_eq_some hkind hx))
  · rw [hsession]
    rfl
  · rw [hsession]
    rfl

/-- Delivering a message of the sender at both desks has the same result, and the desks
    go on mirroring each other. -/
theorem deliver {delivered delivered' : Except IngestError Ingested × Desk Mailbox Ledger}
    (h : d.Mirrors names m.sender d') (hnames : ∀ id, m.prekey? = some id → id ∈ names)
    (hdeliver : (Intake.inMemory limits policy).deliver secret m d = delivered)
    (hdeliver' : (Intake.inMemory limits policy).deliver secret m d' = delivered') :
    delivered.2.Mirrors names m.sender delivered'.2 ∧
      ∀ ρ : Renaming, ρ.Relates m.sender delivered.2.messages delivered'.2.messages →
        ρ.Relates m.sender d.messages d'.messages ∧ delivered'.1 = ρ.result delivered.1 := by
  obtain ⟨identity, acts, d₁, hcarries, heq⟩ := Intake.deliver_eq limits policy secret m d
  obtain ⟨identity', acts', d₁', hcarries', heq'⟩ := Intake.deliver_eq limits policy secret m d'
  rw [heq] at hdeliver
  rw [heq'] at hdeliver'
  subst hdeliver hdeliver'
  have hholdings := hcarries.holdings_eq secret.isSome h.numbered
    (fun c => Ledger.commit_ok_of_plan) Ledger.sender_plan
  have hholdings' := hcarries'.holdings_eq secret.isSome h.numbered'
    (fun c => Ledger.commit_ok_of_plan) Ledger.sender_plan
  rw [← h.plan_eq hnames] at hholdings' hcarries' ⊢
  have hids := hcarries.identitiesOf_eq Ledger.sender_plan
  have hids' := hcarries'.identitiesOf_eq Ledger.sender_plan
  refine ⟨?_, fun ρ hρ => ?_⟩
  · constructor
    case numbered => exact hcarries.isNumbered _ h.numbered
    case numbered' => exact hcarries'.isNumbered _ h.numbered'
    case length =>
      rw [messages_note, messages_note, hids, hids', List.length_append, List.length_append,
        h.length]
      rfl
    case holdings =>
      intro ρ hρ
      obtain ⟨hbefore, rfl⟩ := hρ.of_concat hids hids' h.length
      rw [hholdings, hholdings', h.holdings ρ hbefore, Holdings.rename_add]
    case prekeys =>
      intro id hid
      exact (hcarries.mem_prekeys id).trans
        ((and_congr_left' (h.prekeys id hid)).trans (hcarries'.mem_prekeys id).symm)
  · obtain ⟨hbefore, rfl⟩ := hρ.of_concat hids hids' h.length
    exact ⟨hbefore, rfl⟩

/-- Delivering a message of anyone else at the second desk only leaves the holdings of the
    sender alone. If it uses up no prekey that the sender names, the desk stays a mirror of
    the first. -/
theorem deliver_of_ne {delivered' : Except IngestError Ingested × Desk Mailbox Ledger}
    (h : d.Mirrors names sender d') (hne : m.sender ≠ sender)
    (hcommits : ∀ c ∈ delivered'.2.commits, committer c ≠ sender →
      ∀ id ∈ names, c.prekey? ≠ some id)
    (hdeliver : (Intake.inMemory limits policy).deliver secret m d' = delivered') :
    delivered'.2.holdings sender = d'.holdings sender ∧
      d.Mirrors names sender delivered'.2 := by
  obtain ⟨identity, acts, d₁, hcarries, heq⟩ := Intake.deliver_eq limits policy secret m d'
  rw [heq] at hdeliver
  subst hdeliver
  have hholdings := hcarries.holdings_eq_of_ne secret.isSome h.numbered'
    (fun c => Ledger.commit_ok_of_plan) (Ledger.sender_plan.trans_ne hne)
  refine ⟨hholdings, ?_⟩
  constructor
  case numbered => exact h.numbered
  case numbered' => exact hcarries.isNumbered _ h.numbered'
  case length =>
    rw [identitiesOf_eq _ sender, identitiesOf_eq _ sender, hholdings]
    exact h.length
  case holdings =>
    intro ρ hρ
    rw [Renaming.Relates, identitiesOf_eq _ sender, identitiesOf_eq _ sender, hholdings] at hρ
    rw [hholdings]
    exact h.holdings ρ hρ
  case prekeys =>
    intro id hid
    refine (h.prekeys id hid).trans ⟨fun hmem => ?_, fun hmem => ?_⟩
    · refine (hcarries.mem_prekeys id).2 ⟨hmem, fun hused => ?_⟩
      obtain ⟨c, hc, hcommitter, hprekey⟩ := hcarries.exists_commit hused
      refine hcommits c ?_ ?_ id hid hprekey
      · rw [commits_note]
        exact List.mem_append_left _ hc
      · rw [hcommitter, Ledger.sender_plan]
        exact hne
    · exact ((hcarries.mem_prekeys id).1 hmem).1

end Mirrors

end Desk

namespace Receiver

/-- The receivers share the partials of the sender and mirror each other at their desks. -/
structure Mirrors (limits : Limits) (keys : List (String × UInt8)) (names : List UInt32)
    (sender : String) (now : Nat) (r r' : Receiver Mailbox Ledger) : Prop where
  keyed : r.buffer.KeyedBy keys
  keyed' : r'.buffer.KeyedBy keys
  share : r.buffer.share limits now sender = r'.buffer.share limits now sender
  desk : r.desk.Mirrors names sender r'.desk

namespace Mirrors

variable {limits : Limits} {policy : Policy} {keys : List (String × UInt8)} {names : List UInt32}
  {sender : String} {now : Nat} {r r' : Receiver Mailbox Ledger} {e : Event}

section

variable (h : r.Mirrors limits keys names sender now r') (hnow : now ≤ e.time)
  (hroom : keys.dedup.length ≤ limits.room) (hkeys : ∀ key, e.key? = some key → key ∈ keys)

include h hnow hroom hkeys

/-- An event of the sender has the same result for both receivers, and they go on
    mirroring each other. -/
theorem take {taken taken' : Except IngestError Ingested × Receiver Mailbox Ledger}
    (hsender : e.sender? = some sender)
    (hnames : ∀ m, e.message? limits r'.buffer = some m → ∀ id, m.prekey? = some id → id ∈ names)
    (htake : (Intake.inMemory limits policy).take e r = taken)
    (htake' : (Intake.inMemory limits policy).take e r' = taken') :
    taken.2.Mirrors limits keys names sender e.time taken'.2 ∧
      ∀ ρ : Renaming, ρ.Relates sender taken.2.desk.messages taken'.2.desk.messages →
        ρ.Relates sender r.desk.messages r'.desk.messages ∧ taken'.1 = ρ.result taken.1 := by
  have hkeyed := Event.keyedBy_assembled hroom hkeys h.keyed
  have hkeyed' := Event.keyedBy_assembled hroom hkeys h.keyed'
  obtain ⟨hassembled, hshare⟩ := Event.assembled_congr hroom hkeys h.keyed h.keyed' hsender
    (Buffer.share_mono h.share hnow)
  have hmessage : ∀ m, e.message? limits r'.buffer = some m →
      sender = m.sender ∧ ∀ id, m.prekey? = some id → id ∈ names := fun m hm =>
    ⟨Option.some.inj (hsender.symm.trans (Event.sender_message? hm)), hnames m hm⟩
  rw [Event.message?_eq] at hmessage
  rw [Intake.take_eq_assembled] at htake htake'
  simp only [Intake.inMemory] at htake htake'
  rcases hr : e.assembled limits r.buffer with ⟨assembled, buffer⟩
  rcases hr' : e.assembled limits r'.buffer with ⟨assembled', buffer'⟩
  rw [hr, hr'] at hassembled hshare
  rw [hr] at hkeyed htake
  rw [hr'] at hkeyed' hmessage htake'
  subst hassembled
  rcases assembled with cause | ⟨m, source⟩ | ⟨identifier, received, expected⟩ <;>
    subst htake htake'
  · exact ⟨⟨hkeyed, hkeyed', hshare, h.desk⟩, fun ρ hρ => ⟨hρ, rfl⟩⟩
  · obtain ⟨rfl, hnames⟩ := hmessage _ rfl
    obtain ⟨hdesk, hresult⟩ := h.desk.deliver hnames rfl rfl
    exact ⟨⟨hkeyed, hkeyed', hshare, hdesk⟩, hresult⟩
  · exact ⟨⟨hkeyed, hkeyed', hshare, h.desk⟩, fun ρ hρ => ⟨hρ, rfl⟩⟩

/-- An event of anyone else, taken in by the second receiver only, leaves the holdings of
    the sender alone. If it uses up no prekey that the sender names, the receiver stays a
    mirror of the first. -/
theorem take_of_ne {taken' : Except IngestError Ingested × Receiver Mailbox Ledger}
    (hne : e.sender? ≠ some sender)
    (hcommits : ∀ c ∈ taken'.2.desk.commits, committer c ≠ sender →
      ∀ id ∈ names, c.prekey? ≠ some id)
    (htake' : (Intake.inMemory limits policy).take e r' = taken') :
    taken'.2.desk.holdings sender = r'.desk.holdings sender ∧
      r.Mirrors limits keys names sender e.time taken'.2 := by
  have hkeyed' := Event.keyedBy_assembled hroom hkeys h.keyed'
  have hshare := (Buffer.share_mono h.share hnow).trans
    (Event.share_assembled_of_ne hroom hkeys h.keyed' hne).symm
  have hmessage : ∀ m, e.message? limits r'.buffer = some m → m.sender ≠ sender := fun m hm heq =>
    hne (heq ▸ Event.sender_message? hm)
  rw [Event.message?_eq] at hmessage
  rw [Intake.take_eq_assembled] at htake'
  simp only [Intake.inMemory] at htake'
  rcases hr' : e.assembled limits r'.buffer with ⟨assembled', buffer'⟩
  rw [hr'] at hkeyed' hshare hmessage htake'
  rcases assembled' with cause | ⟨m, source⟩ | ⟨identifier, received, expected⟩ <;>
    subst htake'
  · exact ⟨rfl, h.keyed, hkeyed', hshare, h.desk⟩
  · obtain ⟨hholdings, hdesk⟩ := h.desk.deliver_of_ne (hmessage _ rfl) hcommits rfl
    exact ⟨hholdings, h.keyed, hkeyed', hshare, hdesk⟩
  · exact ⟨rfl, h.keyed, hkeyed', hshare, h.desk⟩

end

end Mirrors

end Receiver

/-! ## Runs -/

namespace Intake

variable {μ σ : Type} (intake : Intake μ σ)

/-- The results of the events of one sender. -/
def resultsOf (sender : String) :
    List Event → Receiver μ σ → List (Except IngestError Ingested)
  | [], _ => []
  | e :: events, r =>
    let rest := resultsOf sender events (intake.take e r).2
    if e.sender? = some sender then (intake.take e r).1 :: rest else rest

/-- The prekeys that the messages of one sender name, as they get whole. -/
def prekeysNamed (sender : String) : List Event → Receiver μ σ → List UInt32
  | [], _ => []
  | e :: events, r =>
    (((e.message? intake.limits r.buffer).filter (·.sender == sender)).bind
      Message.prekey?).toList ++ prekeysNamed sender events (intake.take e r).2

/-- What was committed stays on record. -/
theorem mem_commits_run {c : Commit} (events : List Event) {r : Receiver μ σ}
    (h : c ∈ r.desk.commits) : c ∈ (intake.run events r).desk.commits := by
  rw [Desk.commits, journal_run, List.filterMap_append]
  exact List.mem_append_left _ h

end Intake

namespace Receiver

/-- The receiver over empty stores in memory, with prekeys. -/
def fresh (prekeys : List UInt32) : Receiver Mailbox Ledger where
  desk := { messages := {}, sessions := { prekeys } }

variable {limits : Limits} {policy : Policy} {keys : List (String × UInt8)} {names : List UInt32}
  {sender : String} {now : Nat} {r r' : Receiver Mailbox Ledger}

theorem mirrors_fresh (limits : Limits) (keys : List (String × UInt8)) (names : List UInt32)
    (sender : String) (prekeys : List UInt32) :
    (fresh prekeys).Mirrors limits keys names sender 0 (fresh prekeys) where
  keyed := Buffer.keyedBy_nil keys
  keyed' := Buffer.keyedBy_nil keys
  share := rfl
  desk :=
    { numbered := ⟨Mailbox.isNumbered_empty, nofun⟩
      numbered' := ⟨Mailbox.isNumbered_empty, nofun⟩
      length := rfl
      holdings := fun _ _ => rfl
      prekeys := fun _ _ => Iff.rfl }

/-- The run without the events of others has the same results for the sender, and ends
    in a mirror of the run with them. -/
theorem Mirrors.run (hroom : keys.dedup.length ≤ limits.room) {events : List Event}
    (h : r.Mirrors limits keys names sender now r') (hnow : ∀ e ∈ events, now ≤ e.time)
    (htimes : events.Pairwise (·.time < ·.time))
    (hkeys : ∀ e ∈ events, ∀ key, e.key? = some key → key ∈ keys)
    (hnames : ∀ id ∈ (Intake.inMemory limits policy).prekeysNamed sender events r', id ∈ names)
    (hcommits : ∀ c ∈ ((Intake.inMemory limits policy).run events r').desk.commits,
      committer c ≠ sender → ∀ id ∈ names, c.prekey? ≠ some id) :
    let own := events.filter (·.sender? = some sender)
    let final := (Intake.inMemory limits policy).run own r
    let final' := (Intake.inMemory limits policy).run events r'
    (∃ now', final.Mirrors limits keys names sender now' final') ∧
      ∀ ρ : Renaming, ρ.Relates sender final.desk.messages final'.desk.messages →
        ρ.Relates sender r.desk.messages r'.desk.messages ∧
          (Intake.inMemory limits policy).resultsOf sender events r' =
            ((Intake.inMemory limits policy).resultsOf sender own r).map ρ.result := by
  induction events generalizing r r' now with
  | nil => exact ⟨⟨now, h⟩, fun ρ hρ => ⟨hρ, rfl⟩⟩
  | cons e events ih =>
    obtain ⟨hnow, -⟩ := List.forall_mem_cons.1 hnow
    obtain ⟨hkey, hkeys⟩ := List.forall_mem_cons.1 hkeys
    obtain ⟨hlater, htimes⟩ := List.pairwise_cons.1 htimes
    have hlater : ∀ e' ∈ events, e.time ≤ e'.time := fun e' he' => (hlater e' he').le
    obtain ⟨hnamed, hnames⟩ := List.forall_mem_append.1 hnames
    by_cases hsender : e.sender? = some sender
    · have hnamed : ∀ m, e.message? limits r'.buffer = some m →
          ∀ id, m.prekey? = some id → id ∈ names := by
        intro m hm id hid
        have hm' : m.sender = sender :=
          Option.some.inj ((Event.sender_message? hm).symm.trans hsender)
        have hown : (e.message? limits r'.buffer).filter (·.sender == sender) = some m :=
          Option.filter_eq_some_iff.2 ⟨hm, beq_iff_eq.2 hm'⟩
        exact hnamed id (Option.mem_toList.2 (Option.bind_eq_some_iff.2 ⟨m, hown, hid⟩))
      obtain ⟨hstep, hresult⟩ := h.take hnow hroom hkey hsender hnamed rfl rfl
      obtain ⟨hend, hresults⟩ := ih hstep hlater htimes hkeys hnames hcommits
      rw [List.filter_cons_of_pos (by simpa using hsender)]
      refine ⟨hend, fun ρ hρ => ?_⟩
      obtain ⟨hρ, htail⟩ := hresults ρ hρ
      obtain ⟨hρ, hhead⟩ := hresult ρ hρ
      refine ⟨hρ, ?_⟩
      simp only [Intake.resultsOf, if_pos hsender, List.map_cons, hhead, htail]
    · obtain ⟨hholdings, hstep⟩ := h.take_of_ne hnow hroom hkey hsender
        (fun c hc => hcommits c (Intake.mem_commits_run _ events hc)) rfl
      obtain ⟨hend, hresults⟩ := ih hstep hlater htimes hkeys hnames hcommits
      rw [List.filter_cons_of_neg (by simpa using hsender)]
      refine ⟨hend, fun ρ hρ => ?_⟩
      obtain ⟨hρ, htail⟩ := hresults ρ hρ
      rw [Renaming.Relates, Desk.identitiesOf_eq _ sender, Desk.identitiesOf_eq _ sender,
        hholdings] at hρ
      refine ⟨hρ, ?_⟩
      simp only [Intake.resultsOf, if_neg hsender, htail]

end Receiver

/-- Without the events of all others, a sender gets the same results and comes to hold the
    same, up to the names of messages and threads. The buffer must have room for all that
    is sent in parts, and no other sender may use up a prekey that a bundle of this one
    names. -/
theorem Intake.run_isolatesSenders (limits : Limits) (policy : Policy) (prekeys : List UInt32)
    (events : List Event) (sender : String)
    (htimes : events.Pairwise (·.time < ·.time))
    (hroom : (events.filterMap Event.key?).dedup.length ≤ limits.room)
    (hprekeys : ∀ id ∈ (inMemory limits policy).prekeysNamed sender events (.fresh prekeys),
      ∀ c ∈ ((inMemory limits policy).run events (.fresh prekeys)).desk.commits,
        committer c ≠ sender → c.prekey? ≠ some id) :
    let own := events.filter (·.sender? = some sender)
    ∃ ρ : Renaming,
      (inMemory limits policy).resultsOf sender events (.fresh prekeys) =
          ((inMemory limits policy).resultsOf sender own (.fresh prekeys)).map ρ.result ∧
        ((inMemory limits policy).run events (.fresh prekeys)).desk.holdings sender =
          (((inMemory limits policy).run own (.fresh prekeys)).desk.holdings sender).rename ρ := by
  have hkeys : ∀ e ∈ events, ∀ key, e.key? = some key → key ∈ events.filterMap Event.key? :=
    fun e he key hkey => List.mem_filterMap.2 ⟨e, he, hkey⟩
  obtain ⟨⟨now, hend⟩, hresults⟩ := (Receiver.mirrors_fresh limits (events.filterMap Event.key?)
    _ sender prekeys).run hroom (fun _ _ => Nat.zero_le _) htimes hkeys (fun _ hid => hid)
    fun c hc hother id hid => hprekeys id hid c hc hother
  obtain ⟨ρ, hρ⟩ := Mailbox.exists_renaming hend.desk.numbered.messages
    hend.desk.numbered'.messages hend.desk.length
  exact ⟨ρ, (hresults ρ hρ).2, hend.desk.holdings ρ hρ⟩

/-- A bundle whose keys hold one byte over and over. -/
def PreKeyBundle.repeating (prekey : UInt32) (b : UInt8) : PreKeyBundle where
  version := 2
  sequence := 1
  prekey := prekey
  baseKey := ⟨.fill 32 b⟩
  identityKey := ⟨⟨.fill 32 (b + 1)⟩⟩
  inner := [b]

/-- Two senders at a time: each sends a bundle and parts with the same identifier. -/
def Event.crossing : List Event :=
  let event (time : Nat) (tag : Option Tag) (sender body : String) : Event :=
    { time, secret := none, fragments := [{ sender, body, timestamp := 0 }], declared := .tag tag }
  [event 1 (some .preKeyBundle) "bob" (PreKeyBundle.repeating 1 3).encode,
    event 2 none "alice" (Part.half 1 11).encode,
    event 3 none "bob" (Part.half 0 10).encode,
    event 4 none "alice" (Part.half 0 10).encode,
    event 5 (some .preKeyBundle) "alice" (PreKeyBundle.repeating 2 8).encode]

/-- There is room for two partials, and each sender has a prekey of their own. -/
theorem Intake.run_isolatesSenders_crossing :
    Event.crossing.Pairwise (·.time < ·.time) ∧
      (Event.crossing.filterMap Event.key?).dedup.length = 2 ∧
      (∀ id ∈ (inMemory { maxPending := 2 } {}).prekeysNamed "alice" Event.crossing
          (.fresh [1, 2]),
        ∀ c ∈ ((inMemory { maxPending := 2 } {}).run Event.crossing (.fresh [1, 2])).desk.commits,
          committer c ≠ "alice" → c.prekey? ≠ some id) ∧
      ∃ ρ : Renaming,
        (inMemory { maxPending := 2 } {}).resultsOf "alice" Event.crossing (.fresh [1, 2]) =
            ((inMemory { maxPending := 2 } {}).resultsOf "alice"
              (Event.crossing.filter (·.sender? = some "alice")) (.fresh [1, 2])).map ρ.result ∧
          ((inMemory { maxPending := 2 } {}).run Event.crossing
              (.fresh [1, 2])).desk.holdings "alice" =
            (((inMemory { maxPending := 2 } {}).run
              (Event.crossing.filter (·.sender? = some "alice"))
                (.fresh [1, 2])).desk.holdings "alice").rename ρ := by
  have htimes : Event.crossing.Pairwise (·.time < ·.time) := by decide
  have hroom : (Event.crossing.filterMap Event.key?).dedup.length = 2 := by decide +kernel
  have hnamed : (inMemory { maxPending := 2 } {}).prekeysNamed "alice" Event.crossing
      (.fresh [1, 2]) = [2] := by decide +kernel
  have hused : ((((inMemory { maxPending := 2 } {}).run Event.crossing
      (.fresh [1, 2])).desk.commits.filter (committer · ≠ "alice")).map Commit.prekey?) =
        [some 1] := by decide +kernel
  have hprekeys : ∀ id ∈ (inMemory { maxPending := 2 } {}).prekeysNamed "alice" Event.crossing
        (.fresh [1, 2]),
      ∀ c ∈ ((inMemory { maxPending := 2 } {}).run Event.crossing (.fresh [1, 2])).desk.commits,
        committer c ≠ "alice" → c.prekey? ≠ some id := by
    intro id hid c hc hother hprekey
    rw [hnamed, List.mem_singleton] at hid
    have hmem : some id ∈ [some (1 : UInt32)] :=
      hused ▸ List.mem_map.2 ⟨c, List.mem_filter.2 ⟨hc, decide_eq_true hother⟩, hprekey⟩
    rw [hid] at hmem
    exact absurd hmem (by decide)
  exact ⟨htimes, hroom, hprekeys,
    run_isolatesSenders { maxPending := 2 } {} [1, 2] Event.crossing "alice" htimes hroom.le
      hprekeys⟩

end SecureInbox
