import SecureInbox.Proofs.Intake.Assembly
import SecureInbox.Proofs.Intake.ExactlyOnce

/-!
# What flags mean

Flags are set in several places: by the buffer on a part that cannot be read, and by routing
on key material that cannot be read, is not trusted or cannot be committed, and on a key
exchange that is answered. Still no message gets two of them (`Prepares.flags_cases`). A
part that cannot be read carries no key material, so all that routing could add is the flag
it has already (`Prepares.eq_of_part`); any other message has no flag when it is routed, and
gets one at most.

A message is marked as processed just if it is a key exchange that is looked at and trusted
(`Prepares.processed_iff`). `Intake.run_flagsRightly` says so of every message that a run
hands to the store, however the stores answer.
-/

namespace SecureInbox

variable {μ σ : Type} {policy : Policy} {secret : Option MasterSecret} {m m' : Message}
  {asked before acts : List Act}

/-! ## Verdicts -/

/-- The answers on record are those that the verdict was reached by. -/
theorem JudgesClaim.verdict_of_asked {p : Parties μ σ} {d d' : Desk μ σ} {sender : String}
    {sequence : UInt32} {identity : IdentityKey} {verdict : Verdict}
    (h : JudgesClaim sender sequence identity asked verdict) (hasked : p.DoesAll d asked d') :
    (judgeClaim p.ask sender sequence identity d).1 = verdict := by
  cases h with
  | staleFails | stale =>
    obtain ⟨d₁, hstale, -⟩ := hasked.of_asked
    simp only [judgeClaim, hstale]
  | trustFails | untrusted | trusted =>
    obtain ⟨d₁, hstale, hrest⟩ := hasked.of_asked
    obtain ⟨d₂, htrusted, -⟩ := hrest.of_asked
    simp only [judgeClaim, judgeIdentity, hstale, htrusted]

/-! ## Parts that cannot be read -/

/-- A part is set aside without a question, and gets no flag but that of a corrupted
    message. -/
theorem SetsAside.of_part {flag : Option Flag} {part : Kind × String × List Char}
    (h : SetsAside policy secret m asked flag) (hpart : Wire.splitPart? m.body = some part) :
    asked = [] ∧ (flag = none ∨ flag = some .corrupted) := by
  obtain ⟨cause, hkeys⟩ := Wire.exists_hasNoKeys hpart
  cases h with
  | plain | unanswered => exact ⟨rfl, .inl rfl⟩
  | unreadableExchange _ he =>
    cases he.symm.trans hkeys.exchange
    exact ⟨rfl, .inr rfl⟩
  | unreadableBundle _ he =>
    cases he.symm.trans hkeys.bundle
    exact ⟨rfl, .inr rfl⟩
  | refusedExchange _ hx => exact nomatch hx.symm.trans hkeys.exchange
  | refusedBundle _ hx => exact nomatch hx.symm.trans hkeys.bundle

/-- A part that is marked as corrupted stays as it is. -/
theorem Prepares.eq_of_part {part : Kind × String × List Char}
    (h : Prepares policy secret m before m') (hpart : Wire.splitPart? m.body = some part)
    (hflags : m.flags = Flags.empty.insert .corrupted) : before = [] ∧ m' = m := by
  cases h with
  | ciphertext => exact ⟨rfl, rfl⟩
  | setAside haside =>
    obtain ⟨hasked, rfl | rfl⟩ := haside.of_part hpart
    · exact ⟨hasked, rfl⟩
    · refine ⟨hasked, ?_⟩
      obtain ⟨sender, body, timestamp, kind, flags⟩ := m
      cases hflags
      rfl
  | exchange htrust =>
    exact nomatch hpart.symm.trans (KeyExchange.splitPart?_of_decode htrust.decoded)
  | uncommitted htrust | inner htrust =>
    exact nomatch hpart.symm.trans (PreKeyBundle.splitPart?_of_decode htrust.decoded)

/-- A part is routed without a call of the session store. -/
theorem Routes.not_session_of_part {part : Kind × String × List Char}
    {result : Except StorageError Outcome} (h : Routes policy secret m acts result)
    (hpart : Wire.splitPart? m.body = some part) : ∀ act ∈ acts, act.isSession = false := by
  cases h with
  | ciphertext _ hstored => exact hstored.not_session
  | setAside haside hstored =>
    rw [(haside.of_part hpart).1]
    exact hstored.not_session
  | exchangeRefused htrust | exchangeCommitted htrust | exchangeUncommitted htrust =>
    exact nomatch hpart.symm.trans (KeyExchange.splitPart?_of_decode htrust.decoded)
  | bundleUncommitted htrust | bundleRefused htrust | bundleAccepted htrust =>
    exact nomatch hpart.symm.trans (PreKeyBundle.splitPart?_of_decode htrust.decoded)

theorem Delivers.not_session_of_part {part : Kind × String × List Char}
    {result : Except IngestError Ingested} (h : Delivers policy secret m acts result)
    (hpart : Wire.splitPart? m.body = some part) : ∀ act ∈ acts, act.isSession = false := by
  cases h with
  | stored hroutes =>
    exact List.forall_mem_append.2 ⟨hroutes.not_session_of_part hpart, by simp [Act.isSession]⟩
  | refused hroutes => exact hroutes.not_session_of_part hpart

/-! ## One flag at most -/

/-- What is handed to the store has one flag at most. -/
theorem Prepares.flags_cases (h : Prepares policy secret m before m') (hm : m.IsFresh) :
    m'.flags = .empty ∨ ∃ flag, m'.flags = Flags.empty.insert flag := by
  obtain hempty | ⟨hflags, part, hpart⟩ := hm
  · cases h with
    | ciphertext | inner => exact .inl hempty
    | @setAside _ flag =>
      cases flag with
      | none => exact .inl hempty
      | some flag => exact .inr ⟨flag, congrArg (·.insert flag) hempty⟩
    | exchange => exact .inr ⟨_, congrArg (·.insert .processed) hempty⟩
    | @uncommitted _ _ e => exact .inr ⟨_, congrArg (·.insert e.flag) hempty⟩
  · rw [(h.eq_of_part hpart hflags).2]
    exact .inr ⟨_, hflags⟩

theorem Flags.length_toList_insert (flag : Flag) : (empty.insert flag).toList.length = 1 := by
  cases flag <;> rfl

/-- The verdict on a message is that it holds a trusted key exchange, as far as the parties
    at the desk are asked. -/
def Message.IsTrustedExchange (m : Message) (p : Parties μ σ) (d : Desk μ σ) : Prop :=
  ∃ x, KeyExchange.decode m.body = .ok x ∧ (judgeExchange p.ask m.sender x d).1 = .trusted

/-- A message is marked as processed just if it is a key exchange that is looked at and
    trusted. -/
theorem Prepares.processed_iff {p : Parties μ σ} {d d' : Desk μ σ}
    (h : Prepares policy secret m before m') (hbefore : p.DoesAll d before d')
    (hm : m.flags.contains .processed = false) :
    m'.flags.contains .processed = true ↔
      IsAnswered policy secret m' ∧ m'.IsTrustedExchange p d := by
  cases h with
  | ciphertext hkind =>
    simp only [hm, Bool.false_eq_true, false_iff, not_and]
    exact fun hanswered => nomatch hkind.symm.trans hanswered.kind
  | @setAside _ flag haside =>
    simp only [Message.processed_withFlag? haside.flag_ne_processed, hm, Bool.false_eq_true,
      false_iff, not_and]
    rintro ⟨hkind, hlive, hauto⟩ ⟨x, hx, hverdict⟩
    rw [m.kind_withFlag?] at hkind
    rw [m.body_withFlag?] at hx
    rw [m.sender_withFlag?] at hverdict
    cases haside with
    | plain h | unreadableBundle h | refusedBundle h => exact nomatch hkind.symm.trans h
    | unanswered _ h => exact h ⟨hkind, hlive, hauto⟩
    | unreadableExchange _ h => exact nomatch hx.symm.trans h
    | refusedExchange _ h hjudged hne =>
      cases hx.symm.trans h
      exact hne ((hjudged.verdict_of_asked hbefore).symm.trans hverdict)
  | exchange htrust =>
    obtain ⟨hkind, hlive, hauto⟩ := htrust.answered
    exact iff_of_true (by simp [Message.withFlag])
      ⟨⟨hkind, hlive, hauto⟩, _, htrust.decoded, htrust.judged.verdict_of_asked hbefore⟩
  | @uncommitted _ _ e htrust =>
    have hflag : e.flag ≠ .processed := fun h => e.flag_ne_processed (congrArg some h)
    simp only [Message.withFlag, Flags.contains_insert, hm, Bool.or_false, beq_iff_eq, hflag,
      false_iff, not_and]
    exact fun hanswered => absurd (htrust.kind.symm.trans hanswered.kind) (by decide)
  | inner htrust =>
    simp only [Message.inner, Message.withBody, hm, Bool.false_eq_true, false_iff, not_and]
    exact fun hanswered =>
      absurd (show Kind.secureCiphertext = .keyExchange from hanswered.kind) (by decide)

/-! ## Events -/

namespace Event

variable {e : Event} {part : Kind × String × List Char} {cause : PartError}

/-- A part that cannot be read is made whole by its event as it is, but marked as
    corrupted. -/
theorem message?_of_unreadable (hjoined : e.joined? = some m)
    (hpart : Wire.splitPart? m.body = some part) (hparse : Part.parse m.body = .error cause)
    (limits : Limits) (buffer : Buffer) :
    e.message? limits buffer =
      some { m with kind := part.1, flags := Flags.empty.insert .corrupted } := by
  have hlead := Wire.matchLead?_of_splitPart? hpart
  have hoffer : buffer.offer limits e.time m = (.complete (m.withFlag .corrupted), buffer) := by
    rw [Buffer.offer, hparse]
    cases cause with
    | notAPart => exact absurd hparse (Part.parse_ne_notAPart hpart)
    | _ => rfl
  rw [message?_eq, assembled_of_joined? hjoined, Buffer.assembleJoined,
    if_pos (Wire.isSpecial_of_matchLead? hlead), hoffer]
  have hflags : m.flags = .empty := flags_joined? hjoined
  simp only [Message.classify, Message.withKind, Message.withFlag, KindSource.kindOf, hlead, hflags,
    Option.map_some, Option.getD_some]

end Event

namespace Intake

/-- The flags of what an event hands to the store mean what they should. -/
structure FlagsRightly (intake : Intake μ σ) (e : Event) (r : Receiver μ σ) : Prop where
  one : ∀ {placement m answer}, .inserted placement m answer ∈ intake.entries e r →
    m.flags.toList.length ≤ 1
  /-- Processed are the key exchanges that are looked at and trusted, and nothing else. -/
  processed_iff : ∀ {placement m answer}, .inserted placement m answer ∈ intake.entries e r →
    (m.flags.contains .processed = true ↔
      IsAnswered intake.policy e.secret m ∧ m.IsTrustedExchange intake.parties r.desk)
  /-- A part that cannot be read is stored as it is, with one flag, and no session is
      touched. -/
  unreadable : ∀ {m part cause}, e.joined? = some m → Wire.splitPart? m.body = some part →
    Part.parse m.body = .error cause →
      (∃ placement answer, (intake.entries e r).filterMap Act.insertion? =
        [(placement, { m with kind := part.1, flags := Flags.empty.insert .corrupted }, answer)]) ∧
      ∀ act ∈ intake.entries e r, act.isSession = false

variable {intake : Intake μ σ} {e : Event} {r : Receiver μ σ}

/-- What an event inserts is a message that it made whole, after it was prepared. -/
theorem exists_prepares {placement : Placement} {answer : Except StorageError StoredIdentity}
    (h : .inserted placement m' answer ∈ intake.entries e r) :
    ∃ m before d, e.message? intake.limits r.buffer = some m ∧
      Prepares intake.policy e.secret m before m' ∧ intake.parties.DoesAll r.desk before d := by
  rcases intake.take_whole e r with ⟨-, hdesk⟩ | ⟨m, hwhole, hacts, hdelivers⟩
  · rw [entries, hdesk, List.drop_length] at h
    exact absurd h List.not_mem_nil
  · obtain ⟨before, m'', filed, hprepares, ⟨rest, hrest⟩, hfiles, -⟩ := hdelivers.files
    rw [← hrest] at hacts
    obtain ⟨d, hbefore, -⟩ := hacts.of_append
    obtain ⟨answer', hinsertions⟩ := hfiles.exists_insertion
    cases insertion_unique hinsertions h
    exact ⟨m, before, d, hwhole, hprepares, hbefore⟩

theorem flagsRightly (intake : Intake μ σ) (e : Event) (r : Receiver μ σ) :
    intake.FlagsRightly e r := by
  constructor
  case one =>
    intro placement m' answer hmem
    obtain ⟨m, before, d, hwhole, hprepares, -⟩ := exists_prepares hmem
    obtain hflags | ⟨flag, hflags⟩ := hprepares.flags_cases (Event.isFresh_message? hwhole)
    · rw [hflags]
      exact Nat.zero_le 1
    · rw [hflags, Flags.length_toList_insert]
  case processed_iff =>
    intro placement m' answer hmem
    obtain ⟨m, before, d, hwhole, hprepares, hbefore⟩ := exists_prepares hmem
    exact hprepares.processed_iff hbefore (Event.isFresh_message? hwhole).processed_eq_false
  case unreadable =>
    intro m part cause hjoined hpart hparse
    have hmessage := Event.message?_of_unreadable hjoined hpart hparse intake.limits r.buffer
    rcases intake.take_whole e r with ⟨hnone, -⟩ | ⟨m', hwhole, -, hdelivers⟩
    · exact nomatch hmessage.symm.trans hnone
    · cases hmessage.symm.trans hwhole
      obtain ⟨before, m', filed, hprepares, -, hfiles, -⟩ := hdelivers.files
      obtain ⟨answer, hinsertions⟩ := hfiles.exists_insertion
      rw [(hprepares.eq_of_part hpart rfl).2] at hinsertions
      exact ⟨⟨_, answer, hinsertions⟩, hdelivers.not_session_of_part hpart⟩

/-- Of a run, whatever the stores answer: every message that is handed to the message store
    is handed there by an event of the run, and the flags mean what they should. -/
theorem run_flagsRightly (intake : Intake μ σ) (events : List Event) (r : Receiver μ σ) :
    (∀ before e after, events = before ++ e :: after →
      intake.FlagsRightly e (intake.run before r)) ∧
    ∀ act ∈ intake.runEntries events r, ∃ before e after, events = before ++ e :: after ∧
      act ∈ intake.entries e (intake.run before r) :=
  ⟨fun before e _ _ => intake.flagsRightly e (intake.run before r),
    fun _ => intake.exists_event_of_mem_runEntries⟩

end Intake

end SecureInbox
