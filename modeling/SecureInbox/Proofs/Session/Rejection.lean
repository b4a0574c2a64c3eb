import SecureInbox.Proofs.Session.Prekeys

/-!
# Rejection is permanent

Whatever is committed, a ledger *ages* (`Ledger.AgesTo`): no epoch goes back, and a prekey
that is gone does not return. So a key exchange that is out of date stays out of date, and
a bundle without its prekey stays without.

In a run a ledger even *advances* (`Ledger.AdvancesTo`): an identity that is known stays
known, too. So a later ledger trusts nothing that an earlier one did not
(`Ledger.AdvancesTo.trusts`), and key material that was refused once is refused for good,
if perhaps for another reason (`Ledger.KeepsRefusing`). The ledger itself would take in
another identity. That it advances rests on what is committed, which is what it trusts
(`Desk.Moves`).
`Intake.run_keepsRefusing` puts it together.
-/

namespace SecureInbox

variable {μ : Type}

theorem Commit.identity_settle (s : Session) (c : Commit) :
    (c.settle s).identity = some c.identity := by
  cases c <;> rfl

namespace Ledger

variable {l l' l'' : Ledger} {c : Commit}

/-! ## Ledgers that age -/

/-- A ledger in a later state, whatever was committed: no epoch is lower, and no prekey is
    new. -/
structure AgesTo (l l' : Ledger) : Prop where
  epoch_le : ∀ sender, (l.session sender).epoch ≤ (l'.session sender).epoch
  prekeys_subset : l'.prekeys ⊆ l.prekeys

namespace AgesTo

theorem refl (l : Ledger) : l.AgesTo l where
  epoch_le _ := Nat.le_refl _
  prekeys_subset := List.Subset.refl _

theorem trans (h : l.AgesTo l') (h' : l'.AgesTo l'') : l.AgesTo l'' where
  epoch_le sender := Nat.le_trans (h.epoch_le sender) (h'.epoch_le sender)
  prekeys_subset := List.Subset.trans h'.prekeys_subset h.prekeys_subset

theorem of_commit (l : Ledger) (c : Commit) : l.AgesTo (l.after c) where
  epoch_le sender := by
    cases h : (commit c l).1 with
    | error e => exact Nat.le_of_eq (by rw [after_eq_self h])
    | ok =>
      rw [session_after h]
      split
      · rw [Commit.epoch_settle]
        omega
      · exact Nat.le_refl _
  prekeys_subset id hid := ((l.mem_prekeys_after c id).1 hid).1

variable {sender : String}

/-- A key exchange that is out of date stays out of date. -/
theorem judge_eq_stale (h : l.AgesTo l') {x : KeyExchange}
    (hstale : l.judge sender (.exchange x) = .stale) :
    l'.judge sender (.exchange x) = .stale := by
  rw [judge_exchange_eq_stale] at hstale ⊢
  exact Nat.lt_of_lt_of_le hstale (h.epoch_le sender)

/-- A bundle whose prekey is gone stays without it. -/
theorem judge_eq_gone (h : l.AgesTo l') {x : PreKeyBundle}
    (hgone : l.judge sender (.bundle x) = .invalid .stalePreKey) :
    l'.judge sender (.bundle x) = .invalid .stalePreKey := by
  rw [judge_bundle_eq_gone] at hgone ⊢
  exact fun hprekey => hgone (h.prekeys_subset hprekey)

end AgesTo

/-! ## Ledgers that advance -/

/-- A ledger in a later state: no epoch is lower, the identities known are the same, and
    no prekey is new. -/
structure AdvancesTo (l l' : Ledger) : Prop where
  epoch_le : ∀ sender, (l.session sender).epoch ≤ (l'.session sender).epoch
  identity_eq : ∀ {sender known}, (l.session sender).identity = some known →
    (l'.session sender).identity = some known
  prekeys_subset : l'.prekeys ⊆ l.prekeys

namespace AdvancesTo

theorem refl (l : Ledger) : l.AdvancesTo l where
  epoch_le _ := Nat.le_refl _
  identity_eq h := h
  prekeys_subset := List.Subset.refl _

theorem trans (h : l.AdvancesTo l') (h' : l'.AdvancesTo l'') : l.AdvancesTo l'' where
  epoch_le sender := Nat.le_trans (h.epoch_le sender) (h'.epoch_le sender)
  identity_eq hknown := h'.identity_eq (h.identity_eq hknown)
  prekeys_subset := List.Subset.trans h'.prekeys_subset h.prekeys_subset

theorem agesTo (h : l.AdvancesTo l') : l.AgesTo l' := ⟨h.epoch_le, h.prekeys_subset⟩

/-- What a later ledger trusts, the earlier one trusted already. -/
theorem trusts (h : l.AdvancesTo l') (htrusts : l'.Trusts c) : l.Trusts c where
  fresh := Nat.le_trans (h.epoch_le _) htrusts.fresh
  known _ hknown := htrusts.known _ (h.identity_eq hknown)
  prekey sender x hx := h.prekeys_subset (htrusts.prekey sender x hx)

end AdvancesTo

/-- A commit that is trusted advances the ledger: the identity it settles is the one that
    is known, if there is one. -/
theorem Trusts.advancesTo (h : l.Trusts c) : l.AdvancesTo (l.after c) where
  epoch_le := (AgesTo.of_commit l c).epoch_le
  identity_eq {sender known} hknown := by
    rw [session_after h.commit_ok]
    split
    · rename_i hsender
      subst hsender
      rw [Commit.identity_settle, h.known known hknown]
    · exact hknown
  prekeys_subset := (AgesTo.of_commit l c).prekeys_subset

/-- Key material that a ledger refuses is refused by a later one. The reason may be
    another, but a key exchange stays out of date, and the prekey of a bundle stays
    gone. -/
structure KeepsRefusing (l l' : Ledger) (sender : String) (k : KeyMaterial) : Prop where
  refused : l.judge sender k ≠ .trusted → l'.judge sender k ≠ .trusted
  stale : ∀ x, k = .exchange x → l.judge sender k = .stale → l'.judge sender k = .stale
  gone : ∀ x, k = .bundle x → l.judge sender k = .invalid .stalePreKey →
    l'.judge sender k = .invalid .stalePreKey

theorem AdvancesTo.keepsRefusing (h : l.AdvancesTo l') (sender : String) (k : KeyMaterial) :
    l.KeepsRefusing l' sender k where
  refused hrefused htrusted := hrefused <|
    (judge_eq_trusted ⟨0⟩).2 (h.trusts ((judge_eq_trusted ⟨0⟩).1 htrusted))
  stale _ hx hstale := by
    subst hx
    exact h.agesTo.judge_eq_stale hstale
  gone _ hx hgone := by
    subst hx
    exact h.agesTo.judge_eq_gone hgone

end Ledger

/-! ## Events and runs -/

theorem Desk.Moves.advancesTo {d d' : Desk μ Ledger} (h : d.Moves d') :
    d.sessions.AdvancesTo d'.sessions := by
  cases h with
  | rests _ hsessions => exact hsessions ▸ .refl _
  | commits htrusts _ hsessions => exact hsessions ▸ htrusts.advancesTo

namespace Intake

variable {intake : Intake μ Ledger}

theorem run_advancesTo (hp : intake.parties.sessions = Ledger.store) (events : List Event)
    (r : Receiver μ Ledger) :
    r.desk.sessions.AdvancesTo (intake.run events r).desk.sessions :=
  run_of_moves (P := fun d => r.desk.sessions.AdvancesTo d.sessions) hp
    (fun hmoves h => h.trans hmoves.advancesTo) events (.refl _)

/-- Whatever state a receiver is in, and whatever it receives from then on, key material
    that is refused stays refused. -/
theorem run_keepsRefusing (messages : MessageStore μ) (limits : Limits) (policy : Policy)
    (r : Receiver μ Ledger) (events : List Event) (sender : String) (k : KeyMaterial) :
    r.desk.sessions.KeepsRefusing
      ((overLedger messages limits policy).run events r).desk.sessions sender k :=
  (run_advancesTo rfl events r).keepsRefusing sender k

end Intake

end SecureInbox
