import SecureInbox.Proofs.Session.Rejection

/-!
# Identities are pinned

The first identity that a sender's key material is committed with is believed, and it is
the only one from then on: along every run, all that was committed for a sender carries the
same identity, which is the one the ledger knows (`Desk.PinsIdentity`).

Key material with another identity, in date and with its prekey in place, is stored as it
came. It bears no flag, so that the user can look at it, and it changes neither a session
nor the prekeys. `Intake.run_pinsIdentity` puts this together for a receiver that starts
with a new ledger.
-/

namespace SecureInbox

open SessionStore (committer)

variable {μ : Type}

namespace Desk

/-- The identity that the ledger knows is that of the first commit of the sender, and no
    commit of theirs has carried another. -/
structure PinsIdentity (d : Desk μ Ledger) (sender : String) : Prop where
  first : (d.sessions.session sender).identity =
    (d.commitsOf sender).head?.map Commit.identity
  only : ∀ c ∈ d.commitsOf sender, (d.sessions.session sender).identity = some c.identity

variable {d d' : Desk μ Ledger} {sender : String} {c : Commit}

namespace PinsIdentity

theorem fresh (box : μ) (prekeys : List UInt32) (sender : String) :
    ({ messages := box, sessions := { prekeys } } : Desk μ Ledger).PinsIdentity sender where
  first := rfl
  only := nofun

/-- The next commit of the sender is trusted, so it carries the identity of all before. -/
theorem concat (h : d.PinsIdentity sender) (hc : committer c = sender)
    (htrusts : d.sessions.Trusts c) (hcommits : d'.commitsOf sender = d.commitsOf sender ++ [c])
    (hsession : d'.sessions.session sender = c.settle (d.sessions.session sender)) :
    d'.PinsIdentity sender := by
  subst hc
  -- The ledger now knows the identity of `c`. If it knew one before, that was the same,
  -- since `c` is trusted.
  have hidentity : (d'.sessions.session (committer c)).identity = some c.identity := by
    rw [hsession, Commit.identity_settle]
  have hbefore : ∀ c' ∈ d.commitsOf (committer c), c'.identity = c.identity :=
    fun c' hc' => htrusts.known _ (h.only c' hc')
  constructor
  case first =>
    rw [hidentity, hcommits]
    cases hd : d.commitsOf (committer c) with
    | nil => rfl
    | cons c' rest => simp [hbefore c' (by simp [hd])]
  case only =>
    intro c' hc'
    rw [hcommits] at hc'
    rcases List.mem_append.1 hc' with hc' | hc'
    · rw [hidentity, hbefore c' hc']
    · rw [hidentity, List.mem_singleton.1 hc']

theorem of_eq (h : d.PinsIdentity sender)
    (hcommits : d'.commitsOf sender = d.commitsOf sender)
    (hsession : d'.sessions.session sender = d.sessions.session sender) :
    d'.PinsIdentity sender where
  first := by rw [hsession, hcommits, h.first]
  only := by rw [hsession, hcommits]; exact h.only

/-- An identity stays pinned however the desk moves. -/
theorem moves (hmoves : d.Moves d') (h : d.PinsIdentity sender) : d'.PinsIdentity sender := by
  rcases hmoves.cases_sender sender with
    ⟨hcommits, hsession⟩ | ⟨c, hc, htrusts, hcommits, hsession⟩
  · exact h.of_eq hcommits hsession
  · exact h.concat hc htrusts hcommits hsession

end PinsIdentity

end Desk

/-! ## Key material with another identity -/

/-- The key material is in date and a bundle has its prekey, but the ledger knows the sender
    under another identity. -/
structure Ledger.Conflicts (l : Ledger) (sender : String) (k : KeyMaterial) : Prop where
  fresh : (l.session sender).epoch ≤ k.sequence.toNat
  prekey : ∀ x, k = .bundle x → x.prekey ∈ l.prekeys
  other : ∃ known, (l.session sender).identity = some known ∧ known ≠ k.identity

theorem Ledger.Conflicts.judge_eq {l : Ledger} {sender : String} {k : KeyMaterial}
    (h : l.Conflicts sender k) : l.judge sender k = .invalid .untrusted := by
  cases k with
  | exchange x => exact judgeClaim_eq_untrusted.2 ⟨h.fresh, h.other⟩
  | bundle x =>
    rw [judge, judgeBundle_eq, if_pos (answer_prekey_eq_true.2 (h.prekey x rfl))]
    exact judgeClaim_eq_untrusted.2 ⟨h.fresh, h.other⟩

namespace Intake

variable {intake : Intake μ Ledger} {r : Receiver μ Ledger} {sender : String}

/-- The identity of a sender is settled by their first commit. It stays known and all that
    is committed carries it; a message with another is stored once, without a flag and of
    the kind it came with, and changes nothing else. -/
structure PinsIdentity (intake : Intake μ Ledger) (r : Receiver μ Ledger) (sender : String) :
    Prop where
  pinned : r.desk.PinsIdentity sender
  kept : ∀ {known : IdentityKey}, (r.desk.sessions.session sender).identity = some known →
    ∀ events, ((intake.run events r).desk.sessions.session sender).identity = some known ∧
      ∀ c ∈ (intake.run events r).desk.commitsOf sender, c.identity = known
  refused : intake.parties.messages.Works → ∀ {e : Event} {m : Message} {k : KeyMaterial},
    e.message? intake.limits r.buffer = some m → m.sender = sender →
      m.Presents intake.policy e.secret k → r.desk.sessions.Conflicts sender k →
        m.flags = .empty ∧
          StoresRefused intake.policy e.secret m none (intake.entries e r) (intake.take e r).1 ∧
            (intake.take e r).2.desk.sessions = r.desk.sessions

theorem pinsIdentity (hp : intake.parties.sessions = Ledger.store)
    (h : r.desk.PinsIdentity sender) : intake.PinsIdentity r sender where
  pinned := h
  kept {known} hknown events := by
    have hlater := (run_advancesTo hp events r).identity_eq hknown
    refine ⟨hlater, fun c hc => ?_⟩
    have hpinned := run_of_moves hp Desk.PinsIdentity.moves events h
    exact Option.some.inj ((hpinned.only c hc).symm.trans hlater)
  refused hworks e m k hwhole hsender hk hconflicts := by
    subst hsender
    rcases intake.take_whole e r with ⟨hnone, -⟩ | ⟨m', hwhole', hacts, hdelivers⟩
    · exact nomatch hwhole.symm.trans hnone
    · cases hwhole.symm.trans hwhole'
      have hjudge := hconflicts.judge_eq
      have hstores := hdelivers.storesRefused hp hworks hacts hk (hjudge ▸ nofun)
      rw [hjudge] at hstores
      exact ⟨hk.flags_eq_empty (Event.isFresh_message? hwhole), hstores,
        hacts.ledger_eq hp hstores.uncommitted⟩

/-- Identities are pinned, whatever happened since the ledger was new. -/
theorem run_pinsIdentity (messages : MessageStore μ) (limits : Limits) (policy : Policy)
    (prekeys : List UInt32) (box : μ) (buffer : Buffer) (events : List Event) (sender : String) :
    (overLedger messages limits policy).PinsIdentity
      ((overLedger messages limits policy).run events
        { buffer, desk := { messages := box, sessions := { prekeys } } }) sender :=
  pinsIdentity rfl (run_of_moves rfl Desk.PinsIdentity.moves events (.fresh box prekeys sender))

end Intake

end SecureInbox
