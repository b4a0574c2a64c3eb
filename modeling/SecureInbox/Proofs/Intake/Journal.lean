import SecureInbox.Intake.Desk

/-!
# Reading the journal

All dealings with the desk go through the journal: the answer of a store is
entered as it is given, and jobs and notifications are entries to begin with.
So what a call did is told by the entries it added.

* `Parties.DoesAll`: the desk moves along a list of entries, each of them true:
  the answer entered is the one the store gave at that point;
* `Parties.DoesAll.journal_eq`: the entries are what was added to the journal;
* `Parties.DoesAll.sessions_eq`, `Parties.DoesAll.messages_eq`: entries without
  questions and commits leave the session store alone, and entries without
  insertions the message store;
* `Parties.Performs`: a call is explained by entries of a given form.
-/

namespace SecureInbox

variable {μ σ : Type}

/-- The insertion in an entry, with the answer of the store. -/
def Act.insertion? : Act → Option (Placement × Message × Except StorageError StoredIdentity)
  | .inserted placement m answer => some (placement, m, answer)
  | _ => none

/-- The key material that an entry shows to be committed. -/
def Act.commit? : Act → Option Commit
  | .committed c (.ok ()) => some c
  | _ => none

/-- The entry is about the session store. -/
def Act.isSession : Act → Bool
  | .asked _ _ => true
  | .committed _ _ => true
  | _ => false

namespace Parties

variable (p : Parties μ σ)

/-- What is entered as `act` takes the desk from one state to another. -/
inductive Does : Desk μ σ → Act → Desk μ σ → Prop
  | asked {d d' : Desk μ σ} {question : Question} {answer : Except KeyError Bool} :
      p.ask question d = (answer, d') → Does d (.asked question answer) d'
  | committed {d d' : Desk μ σ} {c : Commit} {answer : Except KeyError Unit} :
      p.commit c d = (answer, d') → Does d (.committed c answer) d'
  | inserted {d d' : Desk μ σ} {placement : Placement} {m : Message}
      {answer : Except StorageError StoredIdentity} :
      p.insert placement m d = (answer, d') → Does d (.inserted placement m answer) d'
  | scheduled (d : Desk μ σ) (job : DecryptionJob) :
      Does d (.scheduled job) (d.note (.scheduled job))
  | notified (d : Desk μ σ) (notice : Notice) :
      Does d (.notified notice) (d.note (.notified notice))

/-- What is entered as `acts`, one after the other, takes the desk from one
    state to another. -/
inductive DoesAll : Desk μ σ → List Act → Desk μ σ → Prop
  | nil (d : Desk μ σ) : DoesAll d [] d
  | cons {d d' d'' : Desk μ σ} {act : Act} {acts : List Act} :
      p.Does d act d' → DoesAll d' acts d'' → DoesAll d (act :: acts) d''

/-- The call that gave `out` is explained: some entries of the form `Form` for
    its result took the desk to where it is. -/
def Performs {α : Type} (Form : List Act → α → Prop) (d : Desk μ σ) (out : α × Desk μ σ) : Prop :=
  ∃ acts, p.DoesAll d acts out.2 ∧ Form acts out.1

variable {p} {d d' d'' : Desk μ σ} {act : Act} {acts acts' : List Act}

theorem Does.journal_eq (h : p.Does d act d') : d'.journal = d.journal ++ [act] := by
  cases h with
  | asked h | committed h | inserted h => exact (Prod.mk.inj h).1 ▸ (Prod.mk.inj h).2 ▸ rfl
  | scheduled | notified => rfl

theorem Does.sessions_eq (h : p.Does d act d') (hact : act.isSession = false) :
    d'.sessions = d.sessions := by
  cases h with
  | asked | committed => exact Bool.noConfusion hact
  | inserted h => exact (Prod.mk.inj h).2 ▸ rfl
  | scheduled | notified => rfl

theorem Does.messages_eq (h : p.Does d act d') (hact : act.insertion? = none) :
    d'.messages = d.messages := by
  cases h with
  | inserted => exact nomatch hact
  | asked h | committed h => exact (Prod.mk.inj h).2 ▸ rfl
  | scheduled | notified => rfl

namespace DoesAll

theorem single (h : p.Does d act d') : p.DoesAll d [act] d' := .cons h (.nil d')

theorem append (h : p.DoesAll d acts d') (h' : p.DoesAll d' acts' d'') :
    p.DoesAll d (acts ++ acts') d'' := by
  induction h with
  | nil => exact h'
  | cons hact _ ih => exact .cons hact (ih h')

/-- Entries in two parts pass a state between them. -/
theorem of_append (h : p.DoesAll d (acts ++ acts') d'') :
    ∃ d', p.DoesAll d acts d' ∧ p.DoesAll d' acts' d'' := by
  induction acts generalizing d with
  | nil => exact ⟨d, .nil d, h⟩
  | cons act acts ih =>
    cases h with
    | cons hact h =>
      obtain ⟨d', h₁, h₂⟩ := ih h
      exact ⟨d', .cons hact h₁, h₂⟩

/-- A question that is entered first was put first. -/
theorem of_asked {question : Question} {answer : Except KeyError Bool}
    (h : p.DoesAll d (.asked question answer :: acts) d') :
    ∃ d₁, p.ask question d = (answer, d₁) ∧ p.DoesAll d₁ acts d' := by
  cases h with
  | cons hact hrest =>
    cases hact with
    | asked hask => exact ⟨_, hask, hrest⟩

theorem journal_eq (h : p.DoesAll d acts d') : d'.journal = d.journal ++ acts := by
  induction h with
  | nil => exact (List.append_nil _).symm
  | cons hact _ ih => rw [ih, hact.journal_eq, List.append_assoc, List.singleton_append]

theorem sessions_eq (h : p.DoesAll d acts d') (hacts : ∀ act ∈ acts, act.isSession = false) :
    d'.sessions = d.sessions := by
  induction h with
  | nil => rfl
  | cons hact _ ih =>
    rw [ih fun act hmem => hacts act (List.mem_cons_of_mem _ hmem),
      hact.sessions_eq (hacts _ List.mem_cons_self)]

theorem messages_eq (h : p.DoesAll d acts d') (hacts : acts.filterMap Act.insertion? = []) :
    d'.messages = d.messages := by
  induction h with
  | nil => rfl
  | @cons d d₁ d₂ act acts hact _ ih =>
    cases hinsertion : act.insertion? with
    | some => simp [hinsertion] at hacts
    | none =>
      rw [List.filterMap_cons_none hinsertion] at hacts
      rw [ih hacts, hact.messages_eq hinsertion]

end DoesAll

end Parties

end SecureInbox
