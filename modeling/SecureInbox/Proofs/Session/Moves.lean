import SecureInbox.Proofs.Intake.Event
import SecureInbox.Proofs.Session.Ledger

/-!
# How a ledger goes on

An event is routed by what the ledger answers, and what is committed is what the ledger
trusts. So over a ledger a desk has two ways to go on: it commits nothing and the ledger
stays as it is, or it commits key material that the ledger trusts, and the ledger takes it
in (`Desk.Moves`, `Intake.take_moves`). What is kept whenever a desk moves is kept by every
run (`Intake.run_of_moves`).

To one sender it only matters what is committed for them (`Desk.Moves.cases_sender`).
-/

namespace SecureInbox

open SessionStore (committer)

variable {μ : Type}

namespace Desk

/-- The key material of one sender that was committed, oldest first. -/
def commitsOf {σ : Type} (d : Desk μ σ) (sender : String) : List Commit :=
  d.commits.filter (committer · == sender)

/-- How a desk with a ledger goes on: it commits nothing and keeps its ledger, or it
    commits key material that the ledger trusts. -/
inductive Moves (d d' : Desk μ Ledger) : Prop
  | rests : d'.commits = d.commits → d'.sessions = d.sessions → Moves d d'
  | commits {c : Commit} : d.sessions.Trusts c → d'.commits = d.commits ++ [c] →
      d'.sessions = d.sessions.after c → Moves d d'

/-- For one sender, nothing is committed and their session stays as it is, or key material
    that the ledger trusts settles it. -/
theorem Moves.cases_sender {d d' : Desk μ Ledger} (h : d.Moves d') (sender : String) :
    (d'.commitsOf sender = d.commitsOf sender ∧
        d'.sessions.session sender = d.sessions.session sender) ∨
      ∃ c, committer c = sender ∧ d.sessions.Trusts c ∧
        d'.commitsOf sender = d.commitsOf sender ++ [c] ∧
          d'.sessions.session sender = c.settle (d.sessions.session sender) := by
  cases h with
  | rests hcommits hsessions =>
    exact .inl ⟨by rw [commitsOf, hcommits, commitsOf], by rw [hsessions]⟩
  | @commits c htrusts hcommits hsessions =>
    have hsession := Ledger.session_after htrusts.commit_ok sender
    rw [← hsessions] at hsession
    have hcommitsOf : d'.commitsOf sender =
        d.commitsOf sender ++ if committer c = sender then [c] else [] := by
      rw [commitsOf, hcommits, List.filter_append, commitsOf]
      simp [List.filter_cons]
    by_cases hc : committer c = sender
    · rw [if_pos hc] at hsession hcommitsOf
      exact .inr ⟨c, hc, htrusts, hcommitsOf, hsession⟩
    · -- a commit for another sender is in another session
      rw [if_neg hc] at hsession hcommitsOf
      exact .inl ⟨hcommitsOf.trans (List.append_nil _), hsession⟩

end Desk

namespace Intake

/-- An intake with a ledger for its session store. -/
def overLedger (messages : MessageStore μ) (limits : Limits) (policy : Policy) :
    Intake μ Ledger where
  parties := { messages, sessions := Ledger.store }
  limits
  policy

variable {intake : Intake μ Ledger}

theorem take_moves (hp : intake.parties.sessions = Ledger.store) (e : Event)
    (r : Receiver μ Ledger) : r.desk.Moves (intake.take e r).2.desk := by
  rcases intake.take_whole e r with ⟨-, hdesk⟩ | ⟨m, -, hacts, hdelivers⟩
  · exact hdesk ▸ .rests rfl rfl
  · have hrecord : (intake.take e r).2.desk.commits =
        r.desk.commits ++ (intake.entries e r).filterMap Act.commit? := by
      rw [Desk.commits, hacts.journal_eq, List.filterMap_append, Desk.commits]
    obtain ⟨_, htries⟩ := hdelivers.triesCommit
    rcases htries.after_eq hp hacts with
      ⟨hcommits, hsessions⟩ | ⟨c, htrusts, hcommits, hsessions⟩
    · exact .rests (by rw [hrecord, hcommits, List.append_nil]) hsessions
    · exact .commits htrusts (by rw [hrecord, hcommits]) hsessions

/-- What is kept whenever a desk moves is kept by a run. -/
theorem run_of_moves (hp : intake.parties.sessions = Ledger.store) {P : Desk μ Ledger → Prop}
    (hmoves : ∀ {d d' : Desk μ Ledger}, d.Moves d' → P d → P d') (events : List Event)
    {r : Receiver μ Ledger} (h : P r.desk) : P (intake.run events r).desk :=
  intake.run_induction (P := fun r => P r.desk) (fun e r => hmoves (take_moves hp e r)) events h

end Intake

end SecureInbox
