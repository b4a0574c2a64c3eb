import SecureInbox.Proofs.Session.Moves
import SecureInbox.Proofs.Session.Verdict

/-!
# One-time prekeys

The prekeys are common to all senders. A bundle is committed only while the prekey
it names is there, and the commit takes it away. So along every run:

* the prekeys left are those of the start without the committed ones, and none is
  committed twice (`Desk.KeepsPrekeys`);
* a bundle whose prekey is not there is stored as it came, marked as stale, and
  nothing else is done about it (`StoresStale`).

`Intake.run_usesPrekeysOnce` puts this together for a receiver that starts with a
new ledger.
-/

namespace SecureInbox

variable {μ : Type} {policy : Policy} {secret : Option MasterSecret} {m : Message} {c : Commit}
  {asked acts : List Act}

/-! ## Prekeys on record -/

/-- The prekey that a commit uses up. -/
def Commit.prekey? : Commit → Option UInt32
  | .exchange _ _ _ => none
  | .bundle _ x => some x.prekey

/-- The prekeys used up by the commits on record, oldest first. -/
def committedPrekeys (journal : List Act) : List UInt32 :=
  (journal.filterMap Act.commit?).filterMap Commit.prekey?

namespace Ledger

/-- A commit takes the prekey it names away, and no other. -/
theorem mem_prekeys_after (l : Ledger) (c : Commit) (id : UInt32) :
    id ∈ (l.after c).prekeys ↔ id ∈ l.prekeys ∧ c.prekey? ≠ some id := by
  cases c with
  | exchange => simp [after, commit, Commit.prekey?]
  | bundle sender x =>
    by_cases hprekey : l.prekeys.contains x.prekey
    · rw [after, commit, if_pos hprekey]
      simp [Commit.prekey?, @eq_comm _ id x.prekey]
    · rw [after, commit, if_neg hprekey]
      have hgone : id ∈ l.prekeys → x.prekey ≠ id := fun hid h =>
        hprekey (List.contains_iff_mem.2 (h ▸ hid))
      simpa [Commit.prekey?] using hgone

/-- A bundle that was committed is without its prekey, whoever sends it again. -/
theorem judge_after_bundle (l : Ledger) (sender other : String) (x : PreKeyBundle) :
    (l.after (.bundle sender x)).judge other (.bundle x) = .invalid .stalePreKey := by
  rw [judge_bundle_eq_gone, mem_prekeys_after]
  exact fun h => h.2 rfl

/-- What the ledger trusts has its prekey there. -/
theorem Trusts.mem_prekeys {l : Ledger} (h : l.Trusts c) {id : UInt32} (hid : c.prekey? = some id) :
    id ∈ l.prekeys := by
  cases c with
  | exchange => exact nomatch hid
  | bundle sender x =>
    cases hid
    exact h.prekey sender x rfl

end Ledger

/-- Of the prekeys that were there at the start, those are left that are not on
    record, and none is on record twice. -/
structure Desk.KeepsPrekeys (prekeys : List UInt32) (d : Desk μ Ledger) : Prop where
  left : ∀ id, id ∈ d.sessions.prekeys ↔ id ∈ prekeys ∧ id ∉ committedPrekeys d.journal
  nodup : (committedPrekeys d.journal).Nodup

namespace Desk.KeepsPrekeys

variable {d d' : Desk μ Ledger} {prekeys : List UInt32}

theorem fresh (box : μ) (prekeys : List UInt32) :
    ({ messages := box, sessions := { prekeys } } : Desk μ Ledger).KeepsPrekeys prekeys where
  left id := by simp [committedPrekeys]
  nodup := .nil

/-- Where nothing is committed no prekey is taken away. -/
theorem of_eq (h : d.KeepsPrekeys prekeys) (hcommits : d'.commits = d.commits)
    (hsessions : d'.sessions = d.sessions) : d'.KeepsPrekeys prekeys := by
  have hprekeys : committedPrekeys d'.journal = committedPrekeys d.journal :=
    congrArg (List.filterMap Commit.prekey?) hcommits
  exact ⟨by rw [hsessions, hprekeys]; exact h.left, hprekeys ▸ h.nodup⟩

/-- A commit that the ledger trusts takes away a prekey that is not on record
    yet. -/
theorem concat (h : d.KeepsPrekeys prekeys) (htrusts : d.sessions.Trusts c)
    (hcommits : d'.commits = d.commits ++ [c]) (hsessions : d'.sessions = d.sessions.after c) :
    d'.KeepsPrekeys prekeys := by
  have hprekeys : committedPrekeys d'.journal =
      committedPrekeys d.journal ++ c.prekey?.toList := by
    refine (congrArg (List.filterMap Commit.prekey?) hcommits).trans ?_
    rw [List.filterMap_append]
    cases hc : c.prekey? <;> simp [committedPrekeys, Desk.commits, hc]
  constructor
  · intro id
    rw [hsessions, Ledger.mem_prekeys_after, h.left, hprekeys]
    simp [and_assoc]
  · rw [hprekeys]
    refine List.nodup_append.2 ⟨h.nodup, ?_, fun id hid id' hid' => ?_⟩
    · cases c.prekey? <;> simp
    · -- the prekey was there, so no commit on record has used it up
      obtain ⟨-, hnew⟩ := (h.left id').1 (htrusts.mem_prekeys (by simpa using hid'))
      exact fun heq => hnew (heq ▸ hid)

/-- The account of the prekeys is kept however the desk moves. -/
theorem moves (hmoves : d.Moves d') (h : d.KeepsPrekeys prekeys) : d'.KeepsPrekeys prekeys := by
  cases hmoves with
  | rests hcommits hsessions => exact h.of_eq hcommits hsessions
  | commits htrusts hcommits hsessions => exact h.concat htrusts hcommits hsessions

end Desk.KeepsPrekeys

/-! ## Bundles that come too late -/

/-- The message is stored once, as it came but for the mark as stale; no job is
    scheduled, and no update of a session is told. -/
structure StoresStale (m : Message) (acts : List Act) (result : Except IngestError Ingested) :
    Prop where
  inserted : ∃ placement identity,
    acts.filterMap Act.insertion? = [(placement, m.withFlag .stale, .ok identity)]
  stored : ∃ outcome, result = .ok (.stored outcome) ∧ outcome.kind = m.kind ∧
    outcome.flags = m.flags.insert .stale ∧ outcome.degraded = none
  untold : ∀ thread, .notified (.securityUpdated thread) ∉ acts
  unscheduled : acts.filterMap Act.job? = []
  uncommitted : ∀ act ∈ acts, act.isCommit = false

/-- A bundle whose prekey is gone is stored as stale, if the store works. -/
theorem Delivers.storesStale {p : Parties μ Ledger} {d d' : Desk μ Ledger} {x : PreKeyBundle}
    {result : Except IngestError Ingested} (hp : p.sessions = Ledger.store)
    (hworks : p.messages.Works) (h : Delivers policy secret m acts result)
    (hacts : p.DoesAll d acts d') (hkind : m.kind = .preKeyBundle)
    (hx : PreKeyBundle.decode m.body = .ok x) (hgone : x.prekey ∉ d.sessions.prekeys) :
    StoresStale m acts result := by
  have hjudge : d.sessions.judge m.sender (.bundle x) = .invalid .stalePreKey :=
    Ledger.judge_bundle_eq_gone.2 hgone
  have hrefused := h.storesRefused hp hworks hacts (.bundle hkind hx)
    (hjudge ▸ Verdict.noConfusion)
  rw [hjudge] at hrefused
  obtain ⟨identity, hinsertions, hresult⟩ := hrefused.stored
  constructor
  case inserted => exact ⟨_, identity, hinsertions⟩
  case stored => exact ⟨_, hresult, rfl, rfl, rfl⟩
  case untold => exact hrefused.untold
  case unscheduled => exact hrefused.unscheduled
  case uncommitted => exact hrefused.uncommitted

namespace Intake

variable {intake : Intake μ Ledger} {r : Receiver μ Ledger} {prekeys : List UInt32}

/-- Every prekey is used once: those left are the ones of the start without those
    committed, none is committed twice, and a bundle that names a prekey which is not
    there is stored, marked as stale and as nothing else, and leaves the sessions
    alone. -/
structure UsesPrekeysOnce (intake : Intake μ Ledger) (prekeys : List UInt32)
    (r : Receiver μ Ledger) : Prop where
  keepsPrekeys : r.desk.KeepsPrekeys prekeys
  refused : intake.parties.messages.Works → ∀ {e : Event} {m : Message} {x : PreKeyBundle},
    e.message? intake.limits r.buffer = some m → m.kind = .preKeyBundle →
      PreKeyBundle.decode m.body = .ok x → x.prekey ∉ r.desk.sessions.prekeys →
        m.flags = .empty ∧ StoresStale m (intake.entries e r) (intake.take e r).1 ∧
          (intake.take e r).2.desk.sessions = r.desk.sessions

theorem usesPrekeysOnce (hp : intake.parties.sessions = Ledger.store)
    (h : r.desk.KeepsPrekeys prekeys) : intake.UsesPrekeysOnce prekeys r where
  keepsPrekeys := h
  refused hworks e m x hwhole hkind hx hgone := by
    rcases intake.take_whole e r with ⟨hnone, -⟩ | ⟨m', hwhole', hacts, hdelivers⟩
    · exact nomatch hwhole.symm.trans hnone
    · cases hwhole.symm.trans hwhole'
      have hstale := hdelivers.storesStale hp hworks hacts hkind hx hgone
      exact ⟨(Event.isFresh_message? hwhole).flags_of_bundle hx, hstale,
        hacts.ledger_eq hp hstale.uncommitted⟩

/-- Every prekey is used once, whatever happened since the ledger was new. -/
theorem run_usesPrekeysOnce (messages : MessageStore μ) (limits : Limits) (policy : Policy)
    (prekeys : List UInt32) (box : μ) (buffer : Buffer) (events : List Event) :
    (overLedger messages limits policy).UsesPrekeysOnce prekeys
      ((overLedger messages limits policy).run events
        { buffer, desk := { messages := box, sessions := { prekeys } } }) :=
  usesPrekeysOnce rfl (run_of_moves rfl Desk.KeepsPrekeys.moves events (.fresh box prekeys))

end Intake

end SecureInbox
