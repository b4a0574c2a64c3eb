import SecureInbox.Config.File
import SecureInbox.Proofs.Duration.Items
import SecureInbox.Proofs.Files.Tree
import SecureInbox.Proofs.Toml.Documents

/-!
# Saved configurations are loaded again

What is saved is loaded as it was, whatever the owner chose: any duration, any filter of the
log and any path of a file.

* `Config.parse_render`: the text of a configuration is read as the sections it was made of
  (`Config.readsAs_render`), and these as the choices in them (`Config.readNamed_document`);
* `Config.load_of_save`: the text is what a file system holds after the configuration was
  saved to it;
* `Duration.survivesSaving`: so a duration is neither rounded nor too long on the way.
-/

namespace SecureInbox

namespace Config

open Toml (Item IsBareName Spells ReadsAs plainSection)

/-! ## The text -/

/-- A line of a section spells a choice. -/
structure IsLine (line : String × List Char) (choice : String × Item) : Prop where
  name_eq : choice.1 = line.1
  bare : IsBareName line.1
  spells : Spells line.2 choice.2

/-- The text of the lines of a section. -/
def linesText (lines : List (String × List Char)) : List Char :=
  lines.flatMap fun (name, value) => name.toList ++ " = ".toList ++ value ++ ['\n']

theorem linesText_cons (line : String × List Char) (lines : List (String × List Char)) :
    linesText (line :: lines) =
      line.1.toList ++ ' ' :: '=' :: ' ' :: (line.2 ++ '\n' :: linesText lines) := by
  simp [linesText]

theorem sectionText_eq (name : String) (lines : List (String × List Char)) :
    sectionText name lines = '[' :: (name.toList ++ ']' :: '\n' :: linesText lines) := by
  simp [sectionText, linesText]

/-- A section is read with its lines, and what comes after it without. -/
theorem readsAs_sectionText {name : String} (hname : IsBareName name)
    {lines : List (String × List Char)} {choices : Toml.Members}
    (h : List.Forall₂ IsLine lines choices) {rest : List Char} {sections : List Toml.Section}
    (hrest : ReadsAs rest [] sections) :
    ReadsAs (sectionText name lines ++ rest) [] (plainSection name choices :: sections) := by
  have hlines : ReadsAs (linesText lines ++ rest) (choices.map fun m => ⟨[], m.1, m.2⟩)
      sections := by
    induction h with
    | nil => exact hrest
    | @cons line choice lines choices hline _ ih =>
      rw [linesText_cons, List.append_assoc, List.cons_append, List.cons_append, List.cons_append,
        List.append_assoc, List.cons_append, List.map_cons, hline.name_eq]
      exact ih.line hline.bare hline.spells
  rw [sectionText_eq, List.cons_append, List.append_assoc, List.cons_append, List.cons_append]
  exact hlines.header hname

/-- The sections of a configuration. -/
def document (c : Config) : List (String × Toml.Members) :=
  [("receiver", [("auto_respond_key_exchange", .boolean c.autoRespond)]),
    ("multipart", [("pending_expiry", .string (String.ofList c.limits.expiry.render)),
      ("max_pending", .integer c.limits.maxPending)]),
    ("logging", ("level", .string c.level) ::
      match c.file with
      | some file => [("file", .string file)]
      | none => [])]

theorem isLine {name : String} {value : List Char} {item : Item} (hname : IsBareName name)
    (hvalue : Spells value item) : IsLine (name, value) (name, item) :=
  ⟨rfl, hname, hvalue⟩

theorem spells_text (s : String) : Spells (Toml.renderString s.toList) (.string s) := by
  have h := Toml.spells_string s.toList
  rwa [String.ofList_toList] at h

/-- The text of a configuration is read as its sections, if its numbers are within the range
    of TOML. -/
theorem readsAs_render {c : Config} (h : c.limits.maxPending < 9223372036854775808) :
    ReadsAs c.render [] (c.document.map fun s => plainSection s.1 s.2) := by
  rw [render, List.append_assoc, List.cons_append, ← List.append_nil (sectionText "logging" _)]
  refine readsAs_sectionText (by decide) (.cons (isLine (by decide) (Toml.spells_boolean _)) .nil)
    (.newline ?_)
  refine readsAs_sectionText (by decide) (.cons (isLine (by decide) (Toml.spells_string _)) <|
    .cons (isLine (by decide) (Toml.spells_integer h)) .nil) (.newline ?_)
  refine readsAs_sectionText (by decide)
    (.cons (isLine (by decide) (spells_text c.level)) ?_) Toml.readsAs_nil
  cases c.file with
  | none => exact .nil
  | some file => exact .cons (isLine (by decide) (spells_text file)) .nil

/-- A saved duration is read back. -/
theorem readExpiry_render (d : Duration) (c : Config) :
    readExpiry (.string (String.ofList d.render)) c =
      .ok { c with limits := { c.limits with expiry := d } } := by
  rw [readExpiry, String.toList_ofList, Duration.parse_render]

/-- Choices are read back from the sections. -/
theorem readNamed_document (c : Config) :
    readNamed sections (c.document.map Toml.tableOf) {} = .ok c := by
  obtain ⟨autoRespond, limits, level, file⟩ := c
  cases file with
  | none =>
    simp [document, Toml.tableOf, readNamed, sections, readSection, readAutoRespond,
      readExpiry_render, readMaxPending, readLevel, List.lookup_cons]
    rfl
  | some file =>
    simp [document, Toml.tableOf, readNamed, sections, readSection, readAutoRespond,
      readExpiry_render, readMaxPending, readLevel, readFile, List.lookup_cons]
    rfl

/-- No name is used twice. -/
theorem document?_document (c : Config) :
    Toml.document? [] (c.document.map fun s => plainSection s.1 s.2) =
      some (c.document.map Toml.tableOf) := by
  refine Toml.document?_plain (by decide : ["receiver", "multipart", "logging"].Nodup) ?_
  intro s hs
  simp only [document, List.mem_cons, List.not_mem_nil, or_false] at hs
  rcases hs with rfl | rfl | rfl
  · exact (by decide : ["auto_respond_key_exchange"].Nodup)
  · exact (by decide : ["pending_expiry", "max_pending"].Nodup)
  · cases c.file with
    | none => exact (by decide : ["level"].Nodup)
    | some file => exact (by decide : ["level", "file"].Nodup)

/-- A configuration is read back from its text. -/
theorem parse_render {c : Config} (h : c.limits.maxPending < 9223372036854775808) :
    parse c.render = .ok c := by
  have hmark : Toml.dropMark c.render = c.render := rfl
  rw [parse, Toml.parse?, hmark, readsAs_render h _ (Nat.lt_succ_self _), Option.bind_eq_bind,
    Option.bind_some]
  dsimp only
  rw [c.document?_document]
  exact c.readNamed_document

/-! ## The file -/

theorem run_bind_of_run {σ α β : Type} {x : StateM σ α} {before after : σ} {a : α}
    (h : x.run before = (a, after)) (f : α → StateM σ β) :
    (x >>= f).run before = (f a).run after := by
  rw [StateT.run_bind, h]
  rfl

/-- A text was written to a file if that was reported. -/
theorem exists_write {path contents : String} {before after : ModelHost}
    (h : (do
      match ← ModelHost.host.write path contents with
      | .ok () => return .ok ()
      | .error cause => return .error (.unwritable path cause) :
        StateM ModelHost (Except ConfigFileError Unit)).run before = (.ok (), after)) :
    ∃ t : FileTree, t.write path contents = .ok after.tree := by
  cases hwrite : before.tree.write path contents with
  | error cause =>
    have hrun : (ModelHost.host.write path contents).run before = (.error cause, before) := by
      change ModelHost.change (fun t => t.write path contents) before = _
      rw [ModelHost.change, hwrite]
    rw [run_bind_of_run hrun] at h
    exact nomatch h
  | ok tree =>
    have hrun : (ModelHost.host.write path contents).run before =
        (.ok (), { before with tree }) := by
      change ModelHost.change (fun t => t.write path contents) before = _
      rw [ModelHost.change, hwrite]
    rw [run_bind_of_run hrun] at h
    cases h
    exact ⟨before.tree, hwrite⟩

/-- A configuration was saved by writing its text to the file. -/
theorem exists_write_of_save {c : Config} {path : String} {before after : ModelHost}
    (h : (c.save ModelHost.host path).run before = (.ok (), after)) :
    ∃ t : FileTree, t.write path (String.ofList c.render) = .ok after.tree := by
  simp only [save] at h
  split at h
  case h_2 => exact exists_write h
  case h_1 directory _ =>
    -- the directory was made before
    cases hmade : (ModelHost.host.ensureDirectories directory).run before with
    | mk made middle =>
      rw [run_bind_of_run hmade] at h
      cases made with
      | error cause => exact nomatch h
      | ok => exact exists_write h

/-- A configuration is loaded from the file it was saved to. -/
theorem load_of_save {c : Config} (hc : c.limits.maxPending < 9223372036854775808) {path : String}
    {before after : ModelHost} (h : (c.save ModelHost.host path).run before = (.ok (), after)) :
    (load ModelHost.host path).run after = (.ok c, after) := by
  obtain ⟨t, hwrite⟩ := exists_write_of_save h
  have hread : (ModelHost.host.read path).run after =
      (.ok (String.ofList c.render), after) := by
    rw [← FileTree.read_of_write hwrite]
    rfl
  have hparse : parse (String.ofList c.render).toList = .ok c := by
    rw [String.toList_ofList, parse_render hc]
  rw [load, run_bind_of_run hread]
  dsimp only
  rw [hparse]
  rfl

/-- A file in the working directory can be saved to. -/
example : ((({} : Config).save ModelHost.host "config.toml").run {}).1 = .ok () := rfl

end Config

/-! ## The duration in it -/

namespace Duration

/-- A duration survives being written and read, alone and in a configuration. The number of
    partial messages in that configuration has to be within the range of TOML, as nothing
    larger can be saved. -/
structure SurvivesSaving (d : Duration) : Prop where
  /-- Its written form stands for it, down to the nanosecond. -/
  parse_eq : parse d.render = .ok d
  /-- So the choice that is saved is the choice that is read. -/
  readExpiry_eq : ∀ c : Config, Config.readExpiry (.string (String.ofList d.render)) c =
    .ok { c with limits := { c.limits with expiry := d } }
  /-- The text of a configuration with the duration is read as that configuration. -/
  parse_config : ∀ c : Config, c.limits.expiry = d →
    c.limits.maxPending < 9223372036854775808 → Config.parse c.render = .ok c
  /-- So is the file that it was saved to. -/
  load_config : ∀ (c : Config) (path : String) (before after : ModelHost),
    c.limits.expiry = d → c.limits.maxPending < 9223372036854775808 →
      (c.save ModelHost.host path).run before = (.ok (), after) →
        (Config.load ModelHost.host path).run after = (.ok c, after)

/-- Every duration survives. -/
theorem survivesSaving (d : Duration) : SurvivesSaving d where
  parse_eq := d.parse_render
  readExpiry_eq := Config.readExpiry_render d
  parse_config _ _ hpending := Config.parse_render hpending
  load_config _ _ _ _ _ hpending hsave := Config.load_of_save hpending hsave

end Duration

end SecureInbox
