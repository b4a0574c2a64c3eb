import Mathlib.Data.List.Induction
import SecureInbox.Proofs.Session.Rejection

/-!
# Commits in any order

A ledger takes in whatever is committed, whether anybody asked for a verdict before or
not. A key exchange always succeeds, and a bundle if its prekey is there; then the session
of the sender moves on and nothing else does but that prekey (`Ledger.Settles`). A commit
that fails changes nothing.

So whatever is asked and committed, a ledger only *ages* (`Ledger.AgesTo`): no epoch goes
back and no prekey returns. Unlike one that advances it may take up another identity, but
aging is enough to keep key material that was committed from being trusted again: the
verdict on a key exchange is `stale` from then on, and on a bundle that its prekey is gone.

An epoch grows with every commit, but once it is above all 32-bit sequences by no more than
one each time, so it takes more than 2 ^ 63 commits to bring it out of 64 bits
(`Ledger.isWithin_afterCalls`).

`Ledger.commitsInAnyOrder` puts this together for a ledger that was new.
-/

namespace SecureInbox

open SessionStore (committer)

/-- A call of a session store. -/
inductive SessionCall
  | ask (question : Question)
  | commit (c : Commit)

namespace SessionStore

variable {σ : Type}

/-- The state of a store after a call, whatever the answer was. -/
def afterCall (store : SessionStore σ) (state : σ) : SessionCall → σ
  | .ask question => (store.ask question state).2
  | .commit c => (store.commit c state).2

/-- The state of a store after some calls, the first one first. -/
def afterCalls (store : SessionStore σ) (calls : List SessionCall) (state : σ) : σ :=
  calls.foldl store.afterCall state

theorem afterCalls_concat (store : SessionStore σ) (calls : List SessionCall) (call : SessionCall)
    (state : σ) :
    store.afterCalls (calls ++ [call]) state =
      store.afterCall (store.afterCalls calls state) call := by
  simp [afterCalls]

end SessionStore

theorem Commit.commits_settle (s : Session) (c : Commit) :
    (c.settle s).commits = s.commits + 1 := by
  cases c <;> rfl

/-- The thread that key material is bound to: that of a key exchange, and for a bundle the
    one there was. -/
def Commit.threadAfter (thread : Option ThreadId) : Commit → Option ThreadId
  | .exchange _ _ thread => some thread
  | .bundle _ _ => thread

theorem Commit.thread_settle (s : Session) (c : Commit) :
    (c.settle s).thread = c.threadAfter s.thread := by
  cases c <;> rfl

/-- After so many commits, the epoch is at most that number above the 32-bit sequences. -/
structure Session.IsWithin (s : Session) (n : Nat) : Prop where
  epoch_le : s.epoch ≤ UInt32.size + n
  commits_le : s.commits ≤ n

namespace Session.IsWithin

variable {s : Session} {n : Nat}

theorem succ (h : s.IsWithin n) : s.IsWithin (n + 1) :=
  ⟨Nat.le_succ_of_le h.epoch_le, Nat.le_succ_of_le h.commits_le⟩

theorem settle (h : s.IsWithin n) (c : Commit) : (c.settle s).IsWithin (n + 1) where
  epoch_le := by
    have hsequence := UInt32.toNat_lt_size c.sequence
    have hepoch := h.epoch_le
    rw [Commit.epoch_settle]
    omega
  commits_le := by
    rw [Commit.commits_settle]
    exact Nat.succ_le_succ h.commits_le

end Session.IsWithin

namespace Ledger

variable {l : Ledger} {c : Commit}

/-! ## One commit -/

/-- The ledger has taken in a commit: the session of its sender has moved on, the prekey it
    names is gone, and nothing else has changed. -/
structure Settles (l : Ledger) (c : Commit) (l' : Ledger) : Prop where
  epoch_eq : (l'.session (committer c)).epoch =
    max (l.session (committer c)).epoch c.sequence.toNat + 1
  commits_eq : (l'.session (committer c)).commits = (l.session (committer c)).commits + 1
  identity_eq : (l'.session (committer c)).identity = some c.identity
  thread_eq : (l'.session (committer c)).thread = c.threadAfter (l.session (committer c)).thread
  others : ∀ other, other ≠ committer c → l'.session other = l.session other
  mem_prekeys : ∀ id, id ∈ l'.prekeys ↔ id ∈ l.prekeys ∧ c.prekey? ≠ some id

theorem settles_after (h : (commit c l).1 = .ok ()) : l.Settles c (l.after c) where
  epoch_eq := by rw [session_after h, if_pos rfl, Commit.epoch_settle]
  commits_eq := by rw [session_after h, if_pos rfl, Commit.commits_settle]
  identity_eq := by rw [session_after h, if_pos rfl, Commit.identity_settle]
  thread_eq := by rw [session_after h, if_pos rfl, Commit.thread_settle]
  others other hother := by rw [session_after h, if_neg (Ne.symm hother)]
  mem_prekeys := l.mem_prekeys_after c

/-- A bundle succeeds if its prekey is there. -/
theorem commit_bundle_fst (l : Ledger) (sender : String) (x : PreKeyBundle) :
    (commit (.bundle sender x) l).1 =
      if x.prekey ∈ l.prekeys then .ok ()
      else .error (.staleKeyMaterial ("prekey " ++ toString x.prekey.toNat ++ " not found")) := by
  by_cases hprekey : x.prekey ∈ l.prekeys
  · rw [commit, if_pos (List.contains_iff_mem.2 hprekey), if_pos hprekey]
  · rw [commit, if_neg (mt List.contains_iff_mem.1 hprekey), if_neg hprekey]

/-- A key exchange that was committed is out of date at once. -/
theorem judge_after_exchange (l : Ledger) (sender : String) (x : KeyExchange) (thread : ThreadId) :
    (l.after (.exchange sender x thread)).judge sender (.exchange x) = .stale := by
  have hok : (commit (.exchange sender x thread) l).1 = .ok () := rfl
  have hepoch := (settles_after hok).epoch_eq
  simp only [committer, Commit.sequence] at hepoch
  rw [judge_exchange_eq_stale, hepoch]
  omega

/-! ## Any number of calls -/

theorem agesTo_afterCalls (calls : List SessionCall) (l : Ledger) :
    l.AgesTo (store.afterCalls calls l) := by
  induction calls generalizing l with
  | nil => exact .refl l
  | cons call calls ih =>
    refine .trans ?_ (ih _)
    cases call with
    | ask => exact .refl l
    | commit c => exact .of_commit l c

theorem isWithin_after {n : Nat} (h : ∀ sender, (l.session sender).IsWithin n) (c : Commit)
    (sender : String) : ((l.after c).session sender).IsWithin (n + 1) := by
  cases hcommit : (commit c l).1 with
  | error e =>
    rw [after_eq_self hcommit]
    exact (h sender).succ
  | ok =>
    rw [session_after hcommit]
    split
    · exact (h sender).settle c
    · exact (h sender).succ

theorem isWithin_afterCalls (prekeys : List UInt32) (calls : List SessionCall) (sender : String) :
    ((store.afterCalls calls { prekeys }).session sender).IsWithin calls.length := by
  induction calls using List.reverseRecOn generalizing sender with
  | nil => exact ⟨Nat.zero_le _, Nat.le_refl _⟩
  | append_singleton calls call ih =>
    rw [SessionStore.afterCalls_concat, List.length_append, List.length_singleton]
    cases call with
    | ask => exact (ih sender).succ
    | commit c => exact isWithin_after ih c sender

/-- The ledger that these calls led to takes in whatever is committed next, but for bundles
    whose prekey is gone, and from then on what it took in is judged as old. -/
structure CommitsInAnyOrder (calls : List SessionCall) (l : Ledger) : Prop where
  exchange_ok : ∀ sender x thread, (store.commit (.exchange sender x thread) l).1 = .ok ()
  bundle_eq : ∀ sender x, (store.commit (.bundle sender x) l).1 =
    if x.prekey ∈ l.prekeys then .ok ()
    else .error (.staleKeyMaterial ("prekey " ++ toString x.prekey.toNat ++ " not found"))
  settles : ∀ c, (store.commit c l).1 = .ok () → l.Settles c (store.commit c l).2
  fails : ∀ c e, (store.commit c l).1 = .error e → (store.commit c l).2 = l
  /-- A verdict makes no difference to what is committed after it. -/
  ask_eq : ∀ question, (store.ask question l).2 = l
  /-- A key exchange that was committed is out of date, whatever is called later. -/
  exchange_stale : ∀ sender x thread later,
    (store.afterCalls later (store.commit (.exchange sender x thread) l).2).judge sender
      (.exchange x) = .stale
  /-- A bundle that was committed is without its prekey, whatever is called later and
      whoever sends it again. -/
  bundle_gone : ∀ sender other x later,
    (store.afterCalls later (store.commit (.bundle sender x) l).2).judge other (.bundle x) =
      .invalid .stalePreKey
  /-- The numbers fit into 64 bits, short of 2 ^ 63 calls. -/
  fits : calls.length < 9223372036854775808 → ∀ sender,
    (l.session sender).epoch < 18446744073709551616 ∧
      (l.session sender).commits < 18446744073709551616

/-- Whatever a ledger that was new is asked and told, commits do as they say. -/
theorem commitsInAnyOrder (prekeys : List UInt32) (calls : List SessionCall) :
    CommitsInAnyOrder calls (store.afterCalls calls { prekeys }) where
  exchange_ok _ _ _ := rfl
  bundle_eq := commit_bundle_fst _
  settles _ h := settles_after h
  fails _ _ h := after_eq_self h
  ask_eq _ := rfl
  exchange_stale sender x thread later :=
    (agesTo_afterCalls later _).judge_eq_stale (judge_after_exchange _ sender x thread)
  bundle_gone sender other x later :=
    (agesTo_afterCalls later _).judge_eq_gone (judge_after_bundle _ sender other x)
  fits hlength sender := by
    have hwithin := isWithin_afterCalls prekeys calls sender
    have hsize : UInt32.size = 4294967296 := rfl
    have hepoch := hwithin.epoch_le
    have hcommits := hwithin.commits_le
    omega

end Ledger

end SecureInbox
