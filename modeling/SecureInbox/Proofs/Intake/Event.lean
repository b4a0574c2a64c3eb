import SecureInbox.Intake.Receiver
import SecureInbox.Proofs.Intake.Commitment

/-!
# Events and runs

An *event* is one call of the receiver: the time on the clock, the live secret,
the fragments, and how their kind is declared. A *run* takes in events one
after the other.

An event comes to one of three things (`Intake.take_cases`): it is meaningless,
it delivers a part and more are needed, or it makes a message whole, which is
then delivered. Only the last touches the desk, and what it does there is
allowed by `Delivers`.
-/

namespace SecureInbox

variable {μ σ : Type}

/-- How the kind of an event is declared: by a tag, or by the number of one, if
    at all. -/
inductive Declaration
  | tag (tag : Option Tag)
  | code (code : Option Int)
  deriving DecidableEq

/-- The tag that is declared; a number may stand for none. -/
def Declaration.tag? : Declaration → Except Malformed (Option Tag)
  | .tag t => .ok t
  | .code none => .ok none
  | .code (some n) =>
    match Tag.ofCode? n with
    | some t => .ok (some t)
    | none => .error (.unknownPushType n)

/-- One call of the receiver. -/
structure Event where
  time : Nat
  secret : Option MasterSecret
  fragments : List Fragment
  declared : Declaration := .tag none
  deriving DecidableEq

namespace Event

variable (e : Event)

/-- The classified message that an event makes whole, if it does. -/
def message? (limits : Limits) (buffer : Buffer) : Option Message :=
  match e.declared.tag? with
  | .error _ => none
  | .ok tag =>
    match (buffer.assemble limits e.time e.fragments tag).1 with
    | .ok (.ready m source) => some (m.classify source)
    | _ => none

/-- The event is meaningless for the cause given. -/
inductive IsMalformed : Malformed → Prop
  | noFragments : e.fragments = [] → IsMalformed .noFragments
  | unknownPushType {n : Int} : e.declared = .code (some n) → ¬(1 ≤ n ∧ n ≤ 4) →
      IsMalformed (.unknownPushType n)

end Event

theorem Tag.ofCode?_eq_none {n : Int} (h : Tag.ofCode? n = none) : ¬(1 ≤ n ∧ n ≤ 4) := by
  rintro ⟨h₁, h₄⟩
  obtain rfl | rfl | rfl | rfl : n = 1 ∨ n = 2 ∨ n = 3 ∨ n = 4 := by omega
  all_goals exact nomatch h

/-- A number beyond those of the tags stands for none. -/
theorem Tag.ofCode?_of_outside {n : Int} (h : ¬(1 ≤ n ∧ n ≤ 4)) : Tag.ofCode? n = none := by
  unfold Tag.ofCode?
  split
  · exact absurd (by decide) h
  · exact absurd (by decide) h
  · exact absurd (by decide) h
  · exact absurd (by decide) h
  · rfl

theorem Event.isMalformed_of_tag? {e : Event} {cause : Malformed}
    (h : e.declared.tag? = .error cause) : e.IsMalformed cause := by
  unfold Declaration.tag? at h
  split at h
  · exact nomatch h
  · exact nomatch h
  · rename_i n hdeclared
    split at h
    · exact nomatch h
    · rename_i hcode
      cases h
      exact .unknownPushType hdeclared (Tag.ofCode?_eq_none hcode)

theorem Event.isMalformed_of_assemble {e : Event} {cause : Malformed} {limits : Limits}
    {tag : Option Tag} {buffer buffer' : Buffer}
    (h : buffer.assemble limits e.time e.fragments tag = (.error cause, buffer')) :
    e.IsMalformed cause := by
  unfold Buffer.assemble at h
  split at h
  · rename_i hfragments
    cases h
    exact .noFragments hfragments
  · exact nomatch h
  · exact nomatch h

/-- The entries that delivering a whole message adds to the journal, and its
    result. -/
inductive Delivers (policy : Policy) (secret : Option MasterSecret) (m : Message) :
    List Act → Except IngestError Ingested → Prop
  | stored {acts : List Act} {outcome : Outcome} :
      Routes policy secret m acts (.ok outcome) →
      Delivers policy secret m
        (acts ++ [.notified (.messageReceived outcome.identity.thread secret.isSome)])
        (.ok (.stored outcome))
  | refused {acts : List Act} {e : StorageError} :
      Routes policy secret m acts (.error e) →
      Delivers policy secret m acts (.error (.storage e))

/-- Delivering a message tries the commit that routing it tries. -/
theorem Delivers.triesCommit {policy : Policy} {secret : Option MasterSecret} {m : Message}
    {acts : List Act} {result : Except IngestError Ingested}
    (h : Delivers policy secret m acts result) :
    ∃ answer?, TriesCommit policy secret m acts answer? := by
  cases h with
  | stored h =>
    obtain ⟨answer?, htries, -⟩ := h.triesCommit
    exact ⟨answer?, htries.append (by simp [Act.isSession])⟩
  | refused h =>
    obtain ⟨answer?, htries, -⟩ := h.triesCommit
    exact ⟨answer?, htries⟩

/-- A message that is delivered is prepared and then filed, and the result is that. -/
theorem Delivers.files {policy : Policy} {secret : Option MasterSecret} {m : Message}
    {acts : List Act} {result : Except IngestError Ingested}
    (h : Delivers policy secret m acts result) :
    ∃ before m' filed, Prepares policy secret m before m' ∧ before <+: acts ∧
      Files policy secret m' acts filed ∧
        result = (filed.map Ingested.stored).mapError IngestError.storage := by
  cases h with
  | stored h =>
    obtain ⟨before, m', hprepares, hbefore, hfiles⟩ := h.files
    refine ⟨before, m', _, hprepares, hbefore.trans (List.prefix_append _ _),
      hfiles.congr ?_ ?_, rfl⟩
    · simp [Act.insertion?]
    · simp [Act.job?]
  | refused h =>
    obtain ⟨before, m', hprepares, hbefore, hfiles⟩ := h.files
    exact ⟨before, m', _, hprepares, hbefore, hfiles, rfl⟩

namespace Intake

variable (intake : Intake μ σ)

theorem deliver_performs (secret : Option MasterSecret) (m : Message) (d : Desk μ σ) :
    intake.parties.Performs (Delivers intake.policy secret m) d (intake.deliver secret m d) := by
  obtain ⟨acts, hacts, hroutes⟩ := intake.parties.route_performs intake.policy secret m d
  rcases h : intake.parties.route intake.policy secret m d with ⟨e | outcome, d₁⟩ <;>
    rw [h] at hacts hroutes <;> simp only [deliver, h]
  · exact ⟨_, hacts, .refused hroutes⟩
  · exact ⟨_, hacts.append (.single (.notified _ _)), .stored hroutes⟩

/-- Takes in one event. -/
def take (e : Event) (r : Receiver μ σ) : Except IngestError Ingested × Receiver μ σ :=
  match e.declared with
  | .tag tag => intake.receive e.time e.secret e.fragments tag r
  | .code code => intake.receivePush e.time e.secret e.fragments code r

/-- Takes in events one after the other. -/
def run (events : List Event) (r : Receiver μ σ) : Receiver μ σ :=
  events.foldl (fun r e => (intake.take e r).2) r

/-- The entries that an event adds to the journal. -/
def entries (e : Event) (r : Receiver μ σ) : List Act :=
  (intake.take e r).2.desk.journal.drop r.desk.journal.length

/-- What an event comes to. -/
inductive Takes (e : Event) (r : Receiver μ σ) :
    Except IngestError Ingested → Desk μ σ → Prop
  | malformed {cause : Malformed} : e.IsMalformed cause →
      e.message? intake.limits r.buffer = none → Takes e r (.error (.malformed cause)) r.desk
  | awaiting (identifier : UInt8) (received expected : Nat) :
      e.message? intake.limits r.buffer = none →
      Takes e r (.ok (.awaitingParts identifier received expected)) r.desk
  | whole {m : Message} {acts : List Act} {result : Except IngestError Ingested}
      {d : Desk μ σ} : e.message? intake.limits r.buffer = some m →
      intake.parties.DoesAll r.desk acts d → Delivers intake.policy e.secret m acts result →
      Takes e r result d

theorem take_eq (e : Event) (r : Receiver μ σ) :
    intake.take e r =
      match e.declared.tag? with
      | .error cause => (.error (.malformed cause), r)
      | .ok tag => intake.receive e.time e.secret e.fragments tag r := by
  unfold take receivePush Declaration.tag?
  rcases e.declared with tag | (_ | n)
  · rfl
  · rfl
  · cases hcode : Tag.ofCode? n <;> simp only [hcode]

theorem run_cons (e : Event) (events : List Event) (r : Receiver μ σ) :
    intake.run (e :: events) r = intake.run events (intake.take e r).2 := rfl

theorem run_append (events events' : List Event) (r : Receiver μ σ) :
    intake.run (events ++ events') r = intake.run events' (intake.run events r) :=
  List.foldl_append

/-- What every event keeps is kept by a run. -/
theorem run_induction {P : Receiver μ σ → Prop} (htake : ∀ e {r}, P r → P (intake.take e r).2)
    (events : List Event) {r : Receiver μ σ} (h : P r) : P (intake.run events r) := by
  induction events generalizing r with
  | nil => exact h
  | cons e events ih => exact ih (htake e h)

/-- An event comes to one of the three things. -/
theorem take_cases (e : Event) (r : Receiver μ σ) :
    intake.Takes e r (intake.take e r).1 (intake.take e r).2.desk := by
  rw [take_eq]
  cases htag : e.declared.tag? with
  | error cause => exact .malformed (Event.isMalformed_of_tag? htag) (by simp only [Event.message?, htag])
  | ok tag =>
    simp only [receive]
    rcases h : r.buffer.assemble intake.limits e.time e.fragments tag with
      ⟨cause | ⟨m, source⟩ | ⟨identifier, received, expected⟩, buffer⟩
    · exact .malformed (Event.isMalformed_of_assemble h) (by simp only [Event.message?, htag, h])
    · obtain ⟨acts, hacts, hdelivers⟩ :=
        intake.deliver_performs e.secret (m.classify source) r.desk
      exact .whole (by simp only [Event.message?, htag, h]) hacts hdelivers
    · exact .awaiting _ _ _ (by simp only [Event.message?, htag, h])

theorem entries_eq {e : Event} {r : Receiver μ σ} {acts : List Act}
    (h : intake.parties.DoesAll r.desk acts (intake.take e r).2.desk) :
    intake.entries e r = acts := by
  rw [entries, h.journal_eq, List.drop_left]

/-- An event that does not make a message whole leaves the desk alone; one that
    does delivers it. -/
theorem take_whole (e : Event) (r : Receiver μ σ) :
    (e.message? intake.limits r.buffer = none ∧ (intake.take e r).2.desk = r.desk) ∨
      ∃ m, e.message? intake.limits r.buffer = some m ∧
        intake.parties.DoesAll r.desk (intake.entries e r) (intake.take e r).2.desk ∧
        Delivers intake.policy e.secret m (intake.entries e r) (intake.take e r).1 := by
  generalize hresult : (intake.take e r).1 = result
  generalize hdesk : (intake.take e r).2.desk = d
  have h := hresult ▸ hdesk ▸ intake.take_cases e r
  cases h with
  | malformed _ hwhole => exact .inl ⟨hwhole, rfl⟩
  | awaiting _ _ _ hwhole => exact .inl ⟨hwhole, rfl⟩
  | whole hwhole hacts hdelivers =>
    rw [intake.entries_eq (hdesk ▸ hacts)]
    exact .inr ⟨_, hwhole, hacts, hdelivers⟩

/-- An event that makes nothing whole leaves the desk alone, and is meaningless unless parts
    are missing. -/
theorem take_of_message?_eq_none {e : Event} {r : Receiver μ σ}
    (h : e.message? intake.limits r.buffer = none) :
    (intake.take e r).2.desk = r.desk ∧
      ((∃ cause, (intake.take e r).1 = .error (.malformed cause) ∧ e.IsMalformed cause) ∨
        ∃ result, (intake.take e r).1 = .ok result ∧ result.outcome? = none) := by
  generalize hresult : (intake.take e r).1 = result
  generalize hdesk : (intake.take e r).2.desk = d
  have hcases := hresult ▸ hdesk ▸ intake.take_cases e r
  cases hcases with
  | malformed hmalformed => exact ⟨rfl, .inl ⟨_, rfl, hmalformed⟩⟩
  | awaiting => exact ⟨rfl, .inr ⟨_, rfl, rfl⟩⟩
  | whole hwhole => cases h.symm.trans hwhole

/-- A meaningless event is refused, whatever came before it. -/
theorem exists_error_of_isMalformed {e : Event} {cause : Malformed} (h : e.IsMalformed cause)
    (r : Receiver μ σ) : ∃ error, (intake.take e r).1 = .error error := by
  rw [take_eq]
  cases htag : e.declared.tag? with
  | error fault => exact ⟨_, rfl⟩
  | ok tag =>
    cases h with
    | noFragments hfragments =>
      exact ⟨.malformed .noFragments, by simp [receive, hfragments, Buffer.assemble]⟩
    | unknownPushType hdeclared hcode =>
      simp [hdeclared, Declaration.tag?, Tag.ofCode?_of_outside hcode] at htag

/-- What was stored is a message that the event made whole. -/
theorem take_stored {e : Event} {r : Receiver μ σ} {outcome : Outcome}
    (h : (intake.take e r).1 = .ok (.stored outcome)) :
    ∃ m, e.message? intake.limits r.buffer = some m ∧
      intake.parties.DoesAll r.desk (intake.entries e r) (intake.take e r).2.desk ∧
        Delivers intake.policy e.secret m (intake.entries e r) (.ok (.stored outcome)) := by
  generalize hdesk : (intake.take e r).2.desk = d
  have hcases := h ▸ hdesk ▸ intake.take_cases e r
  cases hcases with
  | whole hwhole hacts hdelivers =>
    rw [intake.entries_eq (hdesk ▸ hacts)]
    exact ⟨_, hwhole, hacts, hdelivers⟩

/-- The journal grows by the entries of an event. -/
theorem journal_take (e : Event) (r : Receiver μ σ) :
    (intake.take e r).2.desk.journal = r.desk.journal ++ intake.entries e r := by
  rcases intake.take_whole e r with ⟨-, hdesk⟩ | ⟨m, -, hacts, -⟩
  · rw [entries, hdesk, List.drop_length, List.append_nil]
  · exact hacts.journal_eq

/-- The entries that a run adds to the journal. -/
def runEntries (events : List Event) (r : Receiver μ σ) : List Act :=
  (intake.run events r).desk.journal.drop r.desk.journal.length

theorem journal_run (events : List Event) (r : Receiver μ σ) :
    (intake.run events r).desk.journal = r.desk.journal ++ intake.runEntries events r := by
  induction events generalizing r with
  | nil => simp [runEntries, run]
  | cons e events ih =>
    rw [runEntries, run_cons, ih, journal_take, List.append_assoc, List.drop_left]

theorem runEntries_cons (e : Event) (events : List Event) (r : Receiver μ σ) :
    intake.runEntries (e :: events) r =
      intake.entries e r ++ intake.runEntries events (intake.take e r).2 := by
  rw [runEntries, run_cons, journal_run, journal_take, List.append_assoc, List.drop_left]

/-- Every entry of a run is one of an event of the run. -/
theorem exists_event_of_mem_runEntries {events : List Event} {r : Receiver μ σ} {act : Act}
    (h : act ∈ intake.runEntries events r) :
    ∃ before e after, events = before ++ e :: after ∧
      act ∈ intake.entries e (intake.run before r) := by
  induction events generalizing r with
  | nil => simp [runEntries, run] at h
  | cons e events ih =>
    rw [runEntries_cons] at h
    rcases List.mem_append.1 h with h | h
    · exact ⟨[], e, events, rfl, h⟩
    · obtain ⟨before, e', after, rfl, hmem⟩ := ih h
      exact ⟨e :: before, e', after, rfl, hmem⟩

end Intake

end SecureInbox
