import SecureInbox.Proofs.Json.Holding
import SecureInbox.Proofs.Json.Rearrangement
import SecureInbox.Record.Mailbox

/-!
# Records read back

What is reported of an event is written as a record, and so is every stored message. Both
are read back as they were (`isReadBack_reports_and_messages`), from the value as it is
written and from every other one that has the same fields:

* The fields of a record are given as a table (`Outcome.fields`), where it depends on the
  record if they do: only an encrypted inbox has a secret, and only an encrypted path is a
  record.
* A field with a record of its own may be rearranged, the others stay as they are. A path
  with an origin may have its record rearranged but gets no other member.
* A tag is one of the fields of a tagged record. It is taken off first, and what is left is
  rearranged like any record (`Rearranges.exists_tagged?`), whatever stands in it. An
  outcome stands beside its tag and can still be told from it, because none of its fields
  has the name of the tag.
* An outcome that is not degraded has no such member, and none is found after the
  rearrangement, because no member of that name may be added.
-/

namespace SecureInbox

open Json (Value Reading Fields Change Rearranges Wraps)

variable {w : Value} {reading : Reading}

/-! ## Numbers -/

@[simp]
theorem Json.Value.natural?_natural (n : Nat) : (natural n).natural? = some n := rfl

theorem Json.Value.naturalBelow?_natural {n bound : Nat} (h : n < bound) :
    (natural n).naturalBelow? bound = some n := by
  simp [naturalBelow?, Option.filter, h]

theorem timestampOfJson?_natural (timestamp : UInt64) :
    timestampOfJson? (.natural timestamp.toNat) = some timestamp := by
  simp [timestampOfJson?, Json.Value.naturalBelow?_natural timestamp.toNat_lt]

/-! ## Parts of records

Each type of record has a table of its fields. The value that is written has these fields,
and from whatever it is rearranged into the record is read. -/

/-- The fields of an identity. -/
def StoredIdentity.fields : Fields := [("message_id", Eq), ("thread_id", Eq)]

theorem StoredIdentity.rearranges_self (i : StoredIdentity) :
    Rearranges fields i.toJson i.toJson :=
  Json.rearranges_self (by simp [fields])

theorem StoredIdentity.ofJson?_of_rearranges {i : StoredIdentity}
    (h : Rearranges fields i.toJson w) : ofJson? w = some i := by
  obtain ⟨found, hfound, hfields⟩ := h.exists_fields? ["message_id", "thread_id"] 2
    [some i.message.toJson, some i.thread.toJson] rfl (by decide) rfl
  match found, hfields with
  | _, .cons (.some rfl) (.cons (.some rfl) .nil) =>
  rw [ofJson?, hfound]
  rfl

/-- The fields of flags. -/
def Flags.fields : Fields := Flag.all.map fun flag => (flag.label, Eq)

theorem Flags.rearranges_self (f : Flags) : Rearranges fields f.toJson f.toJson :=
  Json.rearranges_self (by simp [fields, Flag.all, Flag.label])

theorem Flags.ofJson?_of_rearranges {f : Flags} (h : Rearranges fields f.toJson w) :
    ofJson? w = some f := by
  obtain ⟨found, hfound, hfields⟩ := h.exists_fields? (Flag.all.map Flag.label) 4
    (Flag.all.map fun flag => some (.bool (f.contains flag))) rfl (by decide) rfl
  match found, hfields with
  | _, .cons (.some rfl) (.cons (.some rfl) (.cons (.some rfl) (.cons (.some rfl) .nil))) =>
  rw [ofJson?, hfound]
  rfl

theorem Kind.ofJson?_toJson (k : Kind) : ofJson? reading k.toJson = some k := by
  cases k <;> rfl

theorem SecretOrigin.ofJson?_toJson (o : SecretOrigin) : ofJson? reading o.toJson = some o := by
  cases o <;> rfl

/-- What may be done to a path: nothing to the name of an alternative, and to an alternative
    with an origin what may be done to the record of the origin. -/
def StoragePath.change : StoragePath → Change
  | .encrypted _ => Wraps (Rearranges [("origin", Eq)])
  | _ => Eq

theorem StoragePath.change_self (p : StoragePath) : p.change p.toJson p.toJson := by
  cases p with
  | plaintext => rfl
  | secure => rfl
  | encrypted origin => exact .object (Json.rearranges_self (by simp))

theorem StoragePath.ofJson?_of_change {p : StoragePath} (h : p.change p.toJson w) :
    ofJson? reading w = some p := by
  cases p with
  | plaintext =>
    obtain rfl := h
    rfl
  | secure =>
    obtain rfl := h
    rfl
  | encrypted origin =>
    obtain ⟨h⟩ := h
    obtain ⟨found, hfound, hfields⟩ :=
      h.exists_fields? ["origin"] 1 [some origin.toJson] rfl (by decide) rfl
    match found, hfields with
    | _, .cons (.some rfl) .nil =>
    simp [ofJson?, Value.alternative?, hfound, SecretOrigin.ofJson?_toJson]

/-- The fields of a degraded state. -/
def Degraded.fields : Fields := [("state", Eq), ("error", Eq)]

theorem Degraded.rearranges_self (d : Degraded) : Rearranges fields d.toJson d.toJson :=
  Json.rearranges_self (by simp [fields])

theorem Degraded.ofJson?_of_rearranges {d : Degraded} (h : Rearranges fields d.toJson w) :
    ofJson? reading w = some d := by
  obtain ⟨error⟩ := d
  obtain ⟨rest, htag, hrest⟩ := h.exists_tagged? (by decide) (by simp)
  obtain ⟨found, hfound, hfields⟩ :=
    hrest.exists_fields? ["error"] 1 [some (.string error)] rfl (by decide) rfl
  match found, hfields with
  | _, .cons (.some rfl) .nil =>
  simp [ofJson?, htag, Value.tagOf?, hfound, Value.string?]

theorem Degraded.optional?_of_rel {degraded : Option Degraded} {found : Option Value}
    (h : Option.Rel (Rearranges fields) (degraded.map toJson) found) :
    (found.getD .null).optional? (ofJson? reading) = some degraded := by
  cases degraded with
  | none =>
    obtain _ | _ := h
    rfl
  | some degraded =>
    obtain ⟨h⟩ := h
    have hread : ofJson? reading _ = some degraded := ofJson?_of_rearranges h
    -- an object is not null, which stands for nothing here
    obtain ⟨⟩ := h
    simp [Value.optional?, hread]

/-- The fields of an inbox: only an encrypted one has a secret. -/
def Inbox.fields : Inbox → Fields
  | .plaintext => [("inbox", Eq)]
  | .encrypted _ => [("inbox", Eq), ("secret", Eq)]

theorem Inbox.rearranges_self (i : Inbox) : Rearranges i.fields i.toJson i.toJson := by
  cases i with
  | plaintext => exact Json.rearranges_self (by simp [fields])
  | encrypted secret => exact Json.rearranges_self (by simp [fields])

theorem Inbox.ofJson?_of_rearranges {i : Inbox} (h : Rearranges i.fields i.toJson w) :
    ofJson? w = some i := by
  cases i with
  | plaintext =>
    obtain ⟨rest, htag, ⟨⟩⟩ := h.exists_tagged? (by decide) (by simp)
    simp [ofJson?, htag, Value.tagOf?, Value.isBare]
  | encrypted secret =>
    obtain ⟨rest, htag, hrest⟩ := h.exists_tagged? (by decide) (by simp)
    obtain ⟨found, hfound, hfields⟩ := hrest.exists_fields? ["secret"] 1
      [some ((secret.map Value.string).getD .null)] rfl (by decide) rfl
    match found, hfields with
    | _, .cons (.some rfl) .nil =>
    cases secret <;>
      simp [ofJson?, htag, Value.tagOf?, List.lookup_cons, hfound, Value.optional?, Value.string?]

/-! ## Outcomes -/

/-- The fields of an outcome. -/
def Outcome.fields (o : Outcome) : Fields :=
  [("identity", Rearranges StoredIdentity.fields), ("kind", Eq), ("path", o.path.change),
    ("flags", Rearranges Flags.fields), ("degraded", Rearranges Degraded.fields)]

/-- An outcome has no members but its fields, so that its tag can stand beside them. -/
theorem Outcome.names_sublist (o : Outcome) :
    (o.members.map Prod.fst).Sublist fieldNames := by
  obtain ⟨identity, kind, path, flags, _ | degraded⟩ := o <;> simp [members, fieldNames]

/-- Every member of an outcome may stay as it is. -/
theorem Outcome.allows_self {o : Outcome} {m : String × Value} (hm : m ∈ o.members) :
    ∃ change, (m.1, change) ∈ o.fields ∧ change m.2 m.2 := by
  revert m
  obtain ⟨identity, kind, path, flags, _ | degraded⟩ := o <;>
    simp [members, fields, StoredIdentity.rearranges_self, StoragePath.change_self,
      Flags.rearranges_self, Degraded.rearranges_self]

theorem Outcome.ofJson?_of_rearranges {o : Outcome} (h : Rearranges o.fields o.toJson w) :
    ofJson? reading w = some o := by
  have hwritten : o.toJson.fields? fieldNames 4 = some [some o.identity.toJson,
      some o.kind.toJson, some o.path.toJson, some o.flags.toJson,
      o.degraded.map Degraded.toJson] := by
    obtain ⟨identity, kind, path, flags, _ | degraded⟩ := o <;> rfl
  obtain ⟨found, hfound, hfields⟩ := h.exists_fields? fieldNames _ _ rfl (by decide) hwritten
  -- the fields one after the other, and nothing after the last one
  obtain _ | ⟨⟨hidentity⟩, _ | ⟨⟨rfl⟩, _ | ⟨⟨hpath⟩, _ | ⟨⟨hflags⟩, _ | ⟨hdegraded, _ | _⟩⟩⟩⟩⟩ :=
    hfields
  simp [ofJson?, hfound, StoredIdentity.ofJson?_of_rearranges hidentity, Kind.ofJson?_toJson,
    StoragePath.ofJson?_of_change hpath, Flags.ofJson?_of_rearranges hflags,
    Degraded.optional?_of_rel hdegraded]

/-- The fields of a report. -/
def Ingested.fields : Ingested → Fields
  | .stored outcome => ("status", Eq) :: outcome.fields
  | .awaitingParts _ _ _ =>
    [("status", Eq), ("identifier", Eq), ("received", Eq), ("expected", Eq)]

theorem Ingested.rearranges_self (i : Ingested) : Rearranges i.fields i.toJson i.toJson := by
  cases i with
  | stored outcome =>
    refine Json.rearranges_self fun m hm => ?_
    rcases List.mem_cons.1 hm with rfl | hm
    · exact ⟨Eq, List.mem_cons_self, rfl⟩
    · obtain ⟨change, hmem, hchange⟩ := Outcome.allows_self hm
      exact ⟨change, List.mem_cons_of_mem _ hmem, hchange⟩
  | awaitingParts identifier received expected => exact Json.rearranges_self (by simp [fields])

theorem Ingested.ofJson?_of_rearranges {i : Ingested} (h : Rearranges i.fields i.toJson w) :
    ofJson? w = some i := by
  cases i with
  | stored outcome =>
    have hnames : "status" ∉ Outcome.fieldNames := by decide
    obtain ⟨rest, htag, hrest⟩ :=
      h.exists_tagged? hnames fun hmem => hnames (outcome.names_sublist.subset hmem)
    simp [ofJson?, htag, Value.tagOf?, Outcome.ofJson?_of_rearranges hrest]
  | awaitingParts identifier received expected =>
    obtain ⟨rest, htag, hrest⟩ := h.exists_tagged? (by decide) (by simp)
    obtain ⟨found, hfound, hfields⟩ := hrest.exists_fields? ["identifier", "received", "expected"] 3
      [some (.natural identifier.toNat), some (.natural received), some (.natural expected)]
      rfl (by decide) rfl
    obtain _ | ⟨⟨rfl⟩, _ | ⟨⟨rfl⟩, _ | ⟨⟨rfl⟩, _ | _⟩⟩⟩ := hfields
    simp [ofJson?, htag, Value.tagOf?, List.lookup_cons, awaitingOfJson?, hfound,
      Json.Value.naturalBelow?_natural identifier.toNat_lt]

/-! ## Stored messages -/

/-- The fields of a stored message. -/
def StoredRecord.fields (r : StoredRecord) : Fields :=
  [("identity", Rearranges StoredIdentity.fields), ("sender", Eq), ("body", Eq),
    ("timestamp", Eq), ("kind", Eq), ("flags", Rearranges Flags.fields),
    ("inbox", Rearranges r.inbox.fields)]

theorem StoredRecord.rearranges_self (r : StoredRecord) :
    Rearranges r.fields r.toJson r.toJson :=
  Json.rearranges_self (by
    simp [fields, StoredIdentity.rearranges_self, Flags.rearranges_self, Inbox.rearranges_self])

theorem StoredRecord.ofJson?_of_rearranges {r : StoredRecord} (h : Rearranges r.fields r.toJson w) :
    ofJson? w = some r := by
  obtain ⟨found, hfound, hfields⟩ := h.exists_fields? fieldNames 7
    [some r.identity.toJson, some (.string r.sender), some (.string r.body),
      some (.natural r.timestamp.toNat), some r.kind.toJson, some r.flags.toJson,
      some r.inbox.toJson] rfl (by decide) rfl
  obtain _ | ⟨⟨hidentity⟩, _ | ⟨⟨rfl⟩, _ | ⟨⟨rfl⟩, _ | ⟨⟨rfl⟩, _ | ⟨⟨rfl⟩, _ | ⟨⟨hflags⟩,
    _ | ⟨⟨hinbox⟩, _ | _⟩⟩⟩⟩⟩⟩⟩ := hfields
  simp [ofJson?, hfound, StoredIdentity.ofJson?_of_rearranges hidentity, Value.string?,
    timestampOfJson?_natural, Kind.ofJson?_toJson, Flags.ofJson?_of_rearranges hflags,
    Inbox.ofJson?_of_rearranges hinbox]

/-! ## Reading back -/

/-- What is written of a record is read back as that record, although its objects are
    rearranged as the fields say. -/
structure Json.Record.IsReadBack {α : Type} [Json.Record α] (a : α) (fields : Fields) :
    Prop where
  /-- The value is read as it is written. -/
  written : Record.ofJson? (Record.toJson a) = some a
  /-- The written value is one of those that may be read in its place. -/
  self : Rearranges fields (Record.toJson a) (Record.toJson a)
  rearranged {w : Value} : Rearranges fields (Record.toJson a) w → Record.ofJson? w = some a
  /-- It is read from any text of such a value that is not nested too deeply. -/
  text {w : Value} {text : List Char} : Rearranges fields (Record.toJson a) w →
    Json.parse? text = some w → w.isHoldable Json.maxDepth = true → Record.ofText? text = some a

theorem Json.Record.IsReadBack.of_rearranges {α : Type} [Json.Record α] {a : α} {fields : Fields}
    (hself : Rearranges fields (Record.toJson a) (Record.toJson a))
    (hread : ∀ w, Rearranges fields (Record.toJson a) w → Record.ofJson? w = some a)
    (hholdable : ∀ w : Value, w.isHoldable Json.maxDepth = true → Record.isHoldable α w = true) :
    IsReadBack a fields where
  written := hread _ hself
  self := hself
  rearranged := hread _
  text h hparse hw := by simp only [Record.ofText?, hparse, hholdable _ hw, hread _ h, if_true]

/-- What is reported of an event and every stored message are read back as they were. -/
theorem isReadBack_reports_and_messages :
    (∀ i : Ingested, Json.Record.IsReadBack i i.fields) ∧
      ∀ r : StoredRecord, Json.Record.IsReadBack r r.fields :=
  ⟨fun i => .of_rearranges i.rearranges_self (fun _ => Ingested.ofJson?_of_rearranges)
      fun _ hw => hw,
    fun r => .of_rearranges r.rearranges_self (fun _ => StoredRecord.ofJson?_of_rearranges)
      fun _ hw => Json.Value.isFieldHoldable_of_isHoldable hw _ _ _⟩

example : Ingested.ofJson? (.object [("expected", .natural 3), ("part", .natural 1),
    ("received", .natural 2), ("status", .string "awaiting_parts"),
    ("identifier", .natural 7)]) = some (.awaitingParts 7 2 3) := by
  decide

end SecureInbox
