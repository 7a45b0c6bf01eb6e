import ChainAgent.Host.World
import ChainAgent.Ledger.Table
import ChainAgent.Proofs.Ledger.LogFile
import ChainAgent.Proofs.Task.Record
import ChainAgent.Proofs.Text.Bytes

/-! The database file of a table.

Decoding inverts encoding (`Table.decode_encode`). `World.Tables` is the content of the file at a
path. Saving a table writes it there (`Database.save_tables`); opening the path gives the table
back, migrated (`Database.openAt_tables`), or an empty one if there was no file
(`Database.openAt_new`). -/
namespace ChainAgent.Ledger

namespace Table

open Json (Value Node)

theorem migrationJson_isIntegral (g : Migration) : (migrationJson g).IsIntegral := by
  simp only [migrationJson, Value.IsIntegral, Json.ItemsIntegral, Value.ofInt, and_true, true_and]
  exact ⟨⟨_, Task.isWord_toInt g.version, rfl⟩, ⟨_, Task.isWord_toInt g.appliedAt, rfl⟩⟩

theorem migrationOf_asRead (g : Migration) : migrationOf (migrationJson g).asRead = .ok g := by
  have hint (n : Int64) := Json.integer_ofInt (Task.isWord_toInt n)
  have hread : (migrationJson g).asRead = .array [.number (some (.ofInt g.version.toInt)),
    .text (some g.name), .number (some (.ofInt g.appliedAt.toInt))] := rfl
  rw [hread, migrationOf]
  simp [migrationShape, Json.Shape.scan, Json.itemFields, Json.required, hint, Json.string,
    Json.fieldOr, bind, Except.bind, Except.map, Except.toOption]
  rfl

def json (t : Table) : Value := .object [
  ("migrations", .array (t.migrations.map migrationJson)),
  ("sequence", .ofInt t.sequence.toInt),
  ("rows", .array (t.rows.map Task.toJson))]

theorem json_isIntegral (t : Table) : t.json.IsIntegral := by
  simp only [json, Value.IsIntegral, Json.MembersIntegral, Value.ofInt, and_true]
  exact ⟨Json.itemsIntegral_map migrationJson_isIntegral _,
    ⟨_, Task.isWord_toInt t.sequence, rfl⟩, Json.itemsIntegral_map Task.toJson_isIntegral _⟩

/-- The fields of a table in JSON. -/
def members (t : Table) : List (String × Node) := [
  ("migrations", .array (t.migrations.map fun g => (migrationJson g).asRead)),
  ("sequence", .number (some (.ofInt t.sequence.toInt))),
  ("rows", .array (t.rows.map fun row => row.toJson.asRead))]

theorem asRead_json (t : Table) :
    t.json.asRead = .object (t.members.map fun m => (some m.1, m.2)) := by
  simp only [json, Value.asRead, Json.membersAsRead, Json.itemsAsRead_map, members]
  rfl

theorem ofNode_asRead (t : Table) : ofNode t.json.asRead = .ok t := by
  have hmigrations := Json.list_map (l := t.migrations) fun g _ => migrationOf_asRead g
  have hsequence := Json.integer_ofInt (Task.isWord_toInt t.sequence)
  have hrows := Json.list_map (l := t.rows) fun row _ => row.ofNode_asRead
  have hscan : shape.scan .text (.object (t.members.map fun m => (some m.1, m.2))) =
      .ok t.members := by
    refine Json.scan_object ?_ (by simp [members]) rfl
    intro m hm
    simp only [members, List.mem_cons, List.not_mem_nil, or_false] at hm
    obtain rfl | rfl | rfl := hm
    all_goals
      refine ⟨_, rfl, ?_⟩
      simp only [Json.required, hmigrations, hsequence, hrows]
      rfl
  rw [asRead_json, ofNode, hscan]
  simp [bind, Except.bind, members, Json.fieldOr, hmigrations, hsequence, hrows, Except.toOption]
  rfl

/-- **Decoding inverts encoding.** -/
theorem decode_encode (t : Table) : decode t.encode = some t := by
  have hread : Json.readDocument t.encode = (t.json.asRead, true) :=
    Json.readDocument_compact t.json_isIntegral
  simp only [decode, Json.decodeText, hread, ofNode_asRead]
  rfl

end Table

end ChainAgent.Ledger

namespace ChainAgent

/-- The file at a path has these bytes, in an existing directory. -/
structure World.Tables (w : World) (path : String) (bytes : ByteArray) : Prop where
  above : ∀ directory, Files.Path.parent? path = some directory → directory ≠ "" →
    w.files.get? (w.place directory) = some .directory
  holds : w.files.get? (w.place path) = some (.file bytes)

namespace Ledger.Database

theorem openAt_eq (path : String) (w : World) :
    openAt World.host path w =
      match reach World.host path w with
      | (.error f, w) => (.error (.io f), w)
      | (.ok _, w) =>
        match loaded (World.host.readText path w).1 with
        | .error f => (.error f, w)
        | .ok t =>
          let d : Database := ⟨some path, t.migrated w.clock⟩
          ((d.save World.host w).1.map fun _ => d, (d.save World.host w).2) := by
  have hread (w : World) : (World.host.readText path w).2 = w := by
    rw [World.readText_eq]
  unfold openAt
  rw [bind_apply]
  obtain ⟨_ | u, w'⟩ := reach World.host path w
  · rfl
  · show (World.host.readText path >>= _) w' = _
    rw [bind_apply, hread]
    dsimp only
    cases loaded (World.host.readText path w').1 with
    | error f => rfl
    | ok t => rfl

section Files

variable {w : World} {path : String} {bytes : ByteArray}

/-- No directory is created for a file in an existing directory. -/
theorem reach_present (habove : ∀ directory, Files.Path.parent? path = some directory →
      directory ≠ "" → w.files.get? (w.place directory) = some .directory) :
    reach World.host path w = (.ok (), w) := by
  unfold reach
  cases hparent : Files.Path.parent? path with
  | none => rfl
  | some directory =>
    by_cases hempty : directory = ""
    · simp [World.host, World.changing, hempty]
    · have hmade := Files.Tree.createDirs_present (habove directory hparent hempty)
      simp [World.host, World.changing, hempty, hmade]

/-- The created directories exist, and nothing else has changed. -/
theorem reach_made {w' : World} (h : reach World.host path w = (.ok (), w')) :
    (∀ directory, Files.Path.parent? path = some directory → directory ≠ "" →
      w'.files.get? (w'.place directory) = some .directory) ∧
    w.files.Extends w'.files ∧ w'.directory = w.directory ∧ w'.clock = w.clock := by
  unfold reach at h
  cases hparent : Files.Path.parent? path with
  | none =>
    rw [hparent] at h
    cases h
    exact ⟨nofun, fun _ => .inl rfl, rfl, rfl⟩
  | some directory =>
    rw [hparent] at h
    by_cases hempty : directory = ""
    · simp only [World.host, World.changing, hempty] at h
      cases h
      refine ⟨?_, fun _ => .inl rfl, rfl, rfl⟩
      intro d hd hne
      cases hd
      exact absurd hempty hne
    · have hne : directory.isEmpty = false := by simpa using hempty
      simp only [World.host, World.changing, hne] at h
      split at h
      · rename_i files hfiles
        cases h
        obtain ⟨hmade, hextends⟩ := Files.Tree.createDirs_made hfiles
        refine ⟨?_, hextends, rfl, rfl⟩
        intro d hd _
        cases hd
        exact hmade
      · cases h

/-- A file in an existing directory has the bytes that are written to it. -/
theorem write_tables {files : Files.Tree}
    (habove : ∀ directory, Files.Path.parent? path = some directory → directory ≠ "" →
      w.files.get? (w.place directory) = some .directory)
    (hwrite : w.files.write (w.place path) bytes = .ok files) :
    World.Tables {w with files := files} path bytes := by
  obtain ⟨hfile, rfl⟩ := Files.Tree.write_eq_ok hwrite
  refine ⟨fun directory hparent hne => ?_, ?_⟩
  · have hdirectory := habove directory hparent hne
    have hother : w.place directory ≠ w.place path := by
      intro hsame
      rw [hsame] at hdirectory
      exact hfile hdirectory
    exact (w.files.get?_put_ne hother _).trans hdirectory
  · refine w.files.get?_put_self (fun hroot => hfile ?_) _
    rw [hroot]
    rfl

theorem save_eq (d : Database) (hd : d.path = some path) (w : World) :
    d.save World.host w =
      match w.files.write (w.place path) d.table.encode.toUTF8 with
      | .ok files => (.ok (), {w with files := files})
      | .error _ => (.error unopened, w) := by
  unfold save
  rw [hd]
  show (World.host.writeFile path d.table.encode.toUTF8 >>= _) w = _
  rw [bind_apply]
  simp only [World.host, World.changing]
  cases w.files.write (w.place path) d.table.encode.toUTF8 <;> rfl

/-- **A table is saved in its file.** -/
theorem save_tables (h : w.Tables path bytes) {d : Database} (hd : d.path = some path) :
    ∃ w', d.save World.host w = (.ok (), w') ∧ w'.Tables path d.table.encode.toUTF8 := by
  have hwrite := Files.Tree.write_file h.holds d.table.encode.toUTF8
  rw [save_eq d hd, hwrite]
  exact ⟨_, rfl, write_tables h.above hwrite⟩

theorem loaded_encode (t : Table) : loaded (.ok t.encode) = .ok t := by
  unfold loaded
  split
  · rename_i hempty
    have hdecode := t.decode_encode
    rw [Except.ok.inj hempty] at hdecode
    cases hdecode
  · rename_i text _ htext
    cases htext
    rw [t.decode_encode]
  · rename_i h
    cases h
  · rename_i h
    cases h
  · rename_i h
    cases h

/-- **Opening the file of a table gives that table**, migrated. -/
theorem openAt_tables {t : Table} (h : w.Tables path t.encode.toUTF8) :
    ∃ w', openAt World.host path w = (.ok ⟨some path, t.migrated w.clock⟩, w') ∧
      w'.Tables path (t.migrated w.clock).encode.toUTF8 := by
  have hread : (World.host.readText path w).1 = .ok t.encode := by
    rw [World.readText_eq, Files.Tree.read_eq_ok_iff.mpr h.holds]
    simp only [Except.bind, Text.decode_toUTF8]
  obtain ⟨w', hsave, htables⟩ := save_tables h (d := ⟨some path, t.migrated w.clock⟩) rfl
  refine ⟨w', ?_, htables⟩
  rw [openAt_eq, reach_present h.above]
  simp only [hread, loaded_encode, hsave]
  rfl

/-- A missing file gives an empty table or cannot be opened. -/
theorem loaded_absent (h : w.files.get? (w.place path) = none ∨
      w.files.get? (w.place path) = some .directory) :
    loaded (World.host.readText path w).1 = .ok .blank ∨
      loaded (World.host.readText path w).1 = .error unopened := by
  rw [World.readText_eq]
  obtain hnone | hdirectory := h
  · simp only [Files.Tree.read, hnone, Files.Tree.absence]
    split
    · exact .inr rfl
    · exact .inl rfl
  · simp only [Files.Tree.read, hdirectory]
    exact .inr rfl

/-- **Opening a path without a file creates an empty table there.** -/
theorem openAt_new {w' : World} {d : Database} (hfile : w.files.get? (w.place path) = none)
    (hopen : openAt World.host path w = (.ok d, w')) :
    d = ⟨some path, Table.blank.migrated w.clock⟩ ∧ w'.Tables path d.table.encode.toUTF8 := by
  rw [openAt_eq] at hopen
  rcases hreach : reach World.host path w with ⟨_ | ⟨⟩, made⟩
  · rw [hreach] at hopen
    cases hopen
  · obtain ⟨habove, hextends, hdirectory, hclock⟩ := reach_made hreach
    have hplace : made.place path = w.place path := by rw [World.place, hdirectory, World.place]
    -- what was made on the way is no file, so there still is none
    have habsent := hextends (w.place path)
    rw [hfile, ← hplace] at habsent
    rw [hreach] at hopen
    obtain hblank | hunopened := loaded_absent (habsent.imp_right (·.2))
    · simp only [hblank, hclock] at hopen
      rw [save_eq ⟨some path, Table.blank.migrated w.clock⟩ rfl] at hopen
      split at hopen
      · rename_i files hwrite
        cases hopen
        exact ⟨rfl, write_tables habove hwrite⟩
      · cases hopen
    · simp only [hunopened] at hopen
      cases hopen

/-- In an existing directory, a new table can be opened. -/
theorem exists_openAt_new
    (habove : ∀ directory, Files.Path.parent? path = some directory → directory ≠ "" →
      w.files.get? (w.place directory) = some .directory)
    (hbeside : w.files.get? (w.place path).dropLast = some .directory)
    (hmissing : w.files.read (w.place path) = .error .missing) :
    ∃ w', openAt World.host path w = (.ok ⟨some path, Table.blank.migrated w.clock⟩, w') := by
  have hloaded : loaded (World.host.readText path w).1 = .ok .blank := by
    rw [World.readText_eq, hmissing]
    rfl
  have hwrite (bytes : ByteArray) :
      w.files.write (w.place path) bytes = .ok (w.files.put (w.place path) (.file bytes)) := by
    simp only [Files.Tree.write, Files.Tree.get?_of_missing hmissing, hbeside]
  rw [openAt_eq, reach_present habove]
  simp only [hloaded]
  rw [save_eq ⟨some path, Table.blank.migrated w.clock⟩ rfl, hwrite]
  exact ⟨_, rfl⟩

end Files

end Ledger.Database

end ChainAgent
