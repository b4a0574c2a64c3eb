import SecureInbox.Program.Report
import SecureInbox.Proofs.Intake.Account
import SecureInbox.Proofs.Intake.Feed

/-!
# Reports are complete

There is a report unless some event is meaningless, and then it is complete: it tells of
every event and of all that was stored, told and scheduled, in order. What is told goes
through a feed on its way. An event gives rise to two notifications at most, and the
feed has room for as many, so none is lost.

All lists of a report follow from its results and from which of them came of an accepted
bundle (`Report.IsComplete`). That every report is complete, and when there is one, is
`Report.isAccurate`.
-/

namespace SecureInbox

/-! ## Events one after the other -/

/-- An event as the receiver gets it. -/
def TimedEvent.event (secret : Option MasterSecret) (code : Option Int) (e : TimedEvent) :
    Event where
  time := e.time
  secret := secret
  fragments := e.fragments
  declared := .code code

/-- An event with the number of a tag is meaningless for its fragments or for the number. -/
theorem TimedEvent.exists_isMalformed_iff {secret : Option MasterSecret} {code : Option Int}
    {e : TimedEvent} : (∃ cause, (e.event secret code).IsMalformed cause) ↔
      e.fragments = [] ∨ ∃ n, code = some n ∧ ¬(1 ≤ n ∧ n ≤ 4) := by
  constructor
  · rintro ⟨_, hfragments | ⟨hdeclared, hcode⟩⟩
    · exact .inl hfragments
    · exact .inr ⟨_, Declaration.code.inj hdeclared, hcode⟩
  · rintro (hfragments | ⟨n, rfl, hcode⟩)
    · exact ⟨_, .noFragments hfragments⟩
    · exact ⟨_, .unknownPushType rfl hcode⟩

namespace Intake

variable {secret : Option MasterSecret} {code : Option Int} {events : List TimedEvent}

theorem length_results {μ σ : Type} (intake : Intake μ σ) (events : List Event)
    (r : Receiver μ σ) : (intake.results events r).length = events.length := by
  induction events generalizing r with
  | nil => rfl
  | cons e events ih => exact congrArg Nat.succ (ih _)

/-- Without a refusal, taking in all events is a run with these results. -/
theorem receiveAll_eq_ok {μ σ : Type} {intake : Intake μ σ} {r r' : Receiver μ σ}
    {results : List Ingested}
    (h : intake.receiveAll secret code events r = (.ok results, r')) :
    intake.results (events.map (·.event secret code)) r = results.map .ok ∧
      intake.run (events.map (·.event secret code)) r = r' := by
  induction events generalizing r results with
  | nil =>
    cases h
    exact ⟨rfl, rfl⟩
  | cons e events ih =>
    have htake : intake.receivePush e.time secret e.fragments code r =
        intake.take (e.event secret code) r := rfl
    rw [receiveAll, htake] at h
    split at h
    · cases h
    · rename_i result r₁ hfirst
      split at h
      · cases h
      · rename_i results' r₂ hrest
        cases h
        obtain ⟨hresults, hrun⟩ := ih hrest
        rw [List.map_cons, Intake.results, run_cons, hfirst, hresults, hrun]
        exact ⟨rfl, rfl⟩

/-- In memory there is a refusal just if some event is meaningless. -/
theorem exists_error_receiveAll_iff {limits : Limits} {policy : Policy}
    {r : Receiver Mailbox Ledger} :
    (∃ error, ((inMemory limits policy).receiveAll secret code events r).1 = .error error) ↔
      ∃ e ∈ events, ∃ cause, (e.event secret code).IsMalformed cause := by
  induction events generalizing r with
  | nil => simp [receiveAll]
  | cons e events ih =>
    have htake : (inMemory limits policy).receivePush e.time secret e.fragments code r =
        (inMemory limits policy).take (e.event secret code) r := rfl
    have hfirst : (∃ error, ((inMemory limits policy).take (e.event secret code) r).1 =
        .error error) ↔ _ := exists_error_take_iff
    simp only [List.mem_cons, exists_eq_or_imp, ← hfirst, receiveAll, htake]
    rcases (inMemory limits policy).take (e.event secret code) r with ⟨error | result, r₁⟩
    · simp
    · simp only [reduceCtorEq, exists_false, false_or, ← ih (r := r₁)]
      split
      · rename_i hrest
        rw [hrest]
      · rename_i hrest
        simp [hrest]

end Intake

/-! ## Reports -/

namespace Report

/-- The messages that a report tells of as stored. -/
def outcomes (report : Report) : List Outcome := report.results.filterMap Ingested.outcome?

/-- The events of a report as the receiver gets them. -/
def Setting.events (s : Setting) (events : List TimedEvent) : List Event :=
  events.map (·.event s.secret s.pushType)

/-- What is read off a feed with room for all notifications is all of them. -/
theorem readNotices_eq {capacity : Nat} {notices : List Notice} (h : notices.length ≤ capacity) :
    readNotices capacity notices = notices.map .event := by
  rw [readNotices, Feed.foldl_publish, Feed.drain_zero]
  · rfl
  · exact h.trans (Feed.le_roundUp capacity)

/-- The report tells of everything that has become of the events. -/
structure IsComplete (c : Config) (s : Setting) (events : List TimedEvent) (report : Report) :
    Prop where
  /-- There is one result for each event, which is what taking it in came to. -/
  results : (intake c s).results (s.events events) (receiver s) = report.results.map .ok
  length : report.results.length = events.length
  stored : List.Forall₂ Outcome.Describes report.outcomes report.stored
  numbers : report.stored.map (·.identity.message.val) = List.range' 1 report.outcomes.length
  notices : report.notices = Ingested.noticesOf s.secret.isSome report.results
    ((intake c s).acceptances (s.events events) (receiver s))
  missed : report.missed = 0
  /-- The same holds of any feed with the room, since it is asked for no more than that. -/
  lossless : ∀ feed : Feed Notice,
    feed.published = ((intake c s).run (s.events events) (receiver s)).desk.notices →
      noticesPerEvent * events.length ≤ feed.capacity → feed.drain 0 = report.notices.map .event
  jobs : report.jobs.map (·.identity) = Outcome.scheduled s.secret report.outcomes

section

variable {c : Config} {s : Setting} {events : List TimedEvent} {results : List Ingested}
  {r : Receiver Mailbox Ledger} {report : Report}

/-- The account of all events, when none was refused. -/
theorem accounts_of_receiveAll
    (h : (intake c s).receiveAll s.secret s.pushType events (receiver s) = (.ok results, r)) :
    (receiver s).desk.Accounts s.secret results
      ((intake c s).acceptances (s.events events) (receiver s)) r.desk := by
  obtain ⟨hresults, hrun⟩ := Intake.receiveAll_eq_ok h
  have hsecret : ∀ e ∈ s.events events, e.secret = s.secret := by
    intro e he
    obtain ⟨_, -, rfl⟩ := List.mem_map.1 he
    rfl
  exact hrun ▸ Intake.run_accounts hsecret hresults

/-- All that was told is in the report, and nothing was missed. -/
theorem ofEvents_eq_ok
    (h : (intake c s).receiveAll s.secret s.pushType events (receiver s) = (.ok results, r))
    (hroom : r.desk.notices.length ≤ noticesPerEvent * events.length) :
    ofEvents c s events = .ok {
      results
      notices := r.desk.notices
      missed := 0
      jobs := r.desk.jobs
      stored := r.desk.messages.records } := by
  simp only [ofEvents, h, readNotices_eq hroom, Delivery.events_map_event,
    Delivery.missedCount_map_event]

/-- There is no report just if an event was refused. -/
theorem exists_error_ofEvents_iff :
    (∃ error, ofEvents c s events = .error error) ↔
      ∃ e ∈ events, ∃ cause, (e.event s.secret s.pushType).IsMalformed cause := by
  have hrefused : (∃ error, ((intake c s).receiveAll s.secret s.pushType events
      (receiver s)).1 = .error error) ↔ _ := Intake.exists_error_receiveAll_iff
  rw [← hrefused, ofEvents]
  split
  · rename_i h
    rw [h]
    simp
  · rename_i h
    rw [h]
    simp

/-- If no event was refused, there is a report, and it is complete. -/
theorem isComplete_of_receiveAll
    (h : (intake c s).receiveAll s.secret s.pushType events (receiver s) = (.ok results, r)) :
    ∃ report, ofEvents c s events = .ok report ∧ report.IsComplete c s events := by
  have haccounts := accounts_of_receiveAll h
  obtain ⟨hresults, hrun⟩ := Intake.receiveAll_eq_ok h
  have hlength : results.length = events.length := by
    simpa [Intake.length_results] using (congrArg List.length hresults).symm
  have hnotices : r.desk.notices = Ingested.noticesOf s.secret.isSome results
      ((intake c s).acceptances (s.events events) (receiver s)) := haccounts.notices
  have hroom : r.desk.notices.length ≤ noticesPerEvent * events.length := by
    rw [hnotices, ← hlength]
    exact Ingested.length_noticesOf_le _ _ _
  refine ⟨_, ofEvents_eq_ok h hroom, ?_⟩
  obtain ⟨added, hadded, hdescribes, hnumbers, -⟩ := haccounts.records
  obtain rfl : added = r.desk.messages.records := hadded.symm
  constructor
  case results => exact hresults
  case length => exact hlength
  case stored => exact hdescribes
  case numbers => rw [hnumbers, ← hdescribes.length_eq]; rfl
  case notices => exact hnotices
  case missed => rfl
  case lossless =>
    intro feed hpublished hcapacity
    have hall : feed.published = r.desk.notices := by rw [hpublished, Setting.events, hrun]
    rw [Feed.drain_zero (hall ▸ hroom.trans hcapacity), hall]
  case jobs => exact haccounts.jobs

end

/-- There is a report unless some event is meaningless, and then it is complete. -/
structure IsAccurate (c : Config) (s : Setting) (events : List TimedEvent) : Prop where
  refused_iff : events ≠ [] → ((∃ error, ofEvents c s events = .error error) ↔
    (∃ e ∈ events, e.fragments = []) ∨ ∃ n, s.pushType = some n ∧ ¬(1 ≤ n ∧ n ≤ 4))
  complete : ∀ report, ofEvents c s events = .ok report → report.IsComplete c s events

/-- Whatever the events and the settings, a report is complete. -/
theorem isAccurate (c : Config) (s : Setting) (events : List TimedEvent) :
    IsAccurate c s events := by
  constructor
  case refused_iff =>
    intro hevents
    simp only [exists_error_ofEvents_iff, TimedEvent.exists_isMalformed_iff]
    constructor
    · rintro ⟨e, he, hfragments | hcode⟩
      · exact .inl ⟨e, he, hfragments⟩
      · exact .inr hcode
    · rintro (⟨e, he, hfragments⟩ | hcode)
      · exact ⟨e, he, .inl hfragments⟩
      · -- A number is looked at once for each event, so there has to be one.
        obtain ⟨e, he⟩ := List.exists_mem_of_ne_nil events hevents
        exact ⟨e, he, .inr hcode⟩
  case complete =>
    intro report hreport
    rcases hall : (intake c s).receiveAll s.secret s.pushType events (receiver s) with
      ⟨error | results, r⟩
    · simp [ofEvents, hall] at hreport
    · obtain ⟨report', hreport', hcomplete⟩ := isComplete_of_receiveAll hall
      obtain rfl := Except.ok.inj (hreport'.symm.trans hreport)
      exact hcomplete

end Report

end SecureInbox
