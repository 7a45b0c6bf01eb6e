import ChainAgent.Proofs.Files.Path
import ChainAgent.Proofs.Host.World
import ChainAgent.Proofs.Ledger.Attempts
import ChainAgent.Proofs.Ledger.Replay

/-! The log file of a ledger.

`World.Logs` is the content of the log in a directory. Opening the directory replays it
(`openAt_logs`), or fails if it is not UTF-8 (`openAt_torn`). Every attempt to store a draft appends
one line, also if an error is reported (`Attempt.store_logs`), so several attempts append a line
each (`storeAll_logs`); a new log has these lines only (`storeAll_new`). -/
namespace ChainAgent

open Ledger.Journal (logName logOf openAt ofTasks replay)

/-- The path of the log in a directory. -/
def World.logPath (directory : String) : String := Files.Path.join directory logName

/-- The log in a directory exists and has these bytes. -/
structure World.Logs (w : World) (directory : String) (bytes : ByteArray) : Prop where
  present : w.files.get? (w.place directory) = some .directory
  holds : w.files.Holds (w.place (World.logPath directory)) bytes

theorem isPlain_logName : Files.Path.IsPlain logName where
  nonempty := by decide
  no_slash := by decide
  not_here := by decide
  not_up := by decide

theorem World.place_logPath (w : World) (directory : String) :
    w.place (World.logPath directory) = w.place directory ++ [logName] :=
  Files.Path.components_join w.directory directory isPlain_logName

/-- A machine with one directory, with or without a log. -/
def World.keeping (log : Option ByteArray) : World :=
  {World.bare with
    files := ⟨(["data"], .directory) ::
      log.toList.map fun bytes => (["data", "tasks.log"], .file bytes)⟩}

theorem World.keeping_logs (log : Option ByteArray) :
    (World.keeping log).Logs "data" (log.getD .empty) := by
  have hplace (w : World) (hw : w.directory = "/") : w.place "data" = ["data"] := by
    rw [World.place, hw]
    decide
  have hdirectory := hplace (World.keeping log) rfl
  have hpath := (World.keeping log).place_logPath "data"
  rw [hdirectory] at hpath
  refine ⟨?_, ?_⟩
  · rw [hdirectory]
    rfl
  · rw [hpath]
    cases log with
    | none => exact .inr ⟨rfl, rfl⟩
    | some bytes => exact .inl rfl

namespace Ledger.Journal

/-! ### Opening -/

section Opening

variable {w : World} {directory : String}

theorem createDirs_logs {bytes : ByteArray} (h : w.Logs directory bytes) :
    World.host.createDirs directory w = (.ok (), w) := by
  have hmade : Files.Tree.createDirs w.files (w.place directory) = .ok w.files :=
    Files.Tree.createDirs_present h.present
  simp only [World.host, World.changing, hmade, ite_self]

/-- **Opening a UTF-8 log replays it.** -/
theorem openAt_logs {text : String} (h : w.Logs directory text.toUTF8) :
    openAt World.host directory w =
      (.ok (ofTasks (some (World.logPath directory)) (replay text)), w) := by
  have hread := w.readText_eq (World.logPath directory)
  unfold World.logPath at hread ⊢
  obtain hbytes | ⟨hempty, hmissing⟩ := h.holds
  · unfold World.logPath at hbytes
    simp only [hbytes, Except.bind, Text.decode_toUTF8] at hread
    simp only [openAt, bind, StateT.bind, createDirs_logs h, hread]
    rfl
  · have htext : text = "" := Text.toUTF8_inj hempty
    unfold World.logPath at hmissing
    simp only [hmissing, Except.bind] at hread
    simp only [openAt, bind, StateT.bind, createDirs_logs h, hread, htext]
    rfl

/-- **Opening a log that is not UTF-8 fails.** -/
theorem openAt_torn {bytes : ByteArray} (h : w.Logs directory bytes)
    (htorn : Text.decode bytes = none) :
    openAt World.host directory w = (.error (.io .notText), w) := by
  have hread := w.readText_eq (World.logPath directory)
  obtain hbytes | ⟨hempty, -⟩ := h.holds
  · unfold World.logPath at hread hbytes
    simp only [hbytes, Except.bind, htorn] at hread
    simp only [openAt, bind, StateT.bind, createDirs_logs h, hread]
    rfl
  · rw [hempty] at htorn
    cases (Text.decode_toUTF8 "").symm.trans htorn

end Opening

end Ledger.Journal

/-! ### Storing -/

/-- A machine that reports an error for every append although it is done. -/
def World.reporting (report : Option Files.Fault) : Host (StateM World) :=
  {World.host with
    appendFile := fun path bytes => do
      match ← World.host.appendFile path bytes with
      | .error f => return .error f
      | .ok _ =>
        match report with
        | some f => return .error f
        | none => return .ok ()}

namespace Ledger.Journal

namespace Attempt

/-- Stores the draft at the time of the attempt. -/
def store (a : Attempt) (j : Journal) : StateM World (Except Failure Task × Journal) := fun w =>
  j.create (World.reporting a.report) a.draft {w with clock := a.now}

end Attempt

/-- Several attempts, one after the other. -/
def storeAll (j : Journal) : List Attempt → StateM World (List (Except Failure Task) × Journal)
  | [] => return ([], j)
  | a :: attempts => do
    let (result, j) ← a.store j
    let (results, j) ← storeAll j attempts
    return (result :: results, j)

/-- Appended bytes are at the end of the file. -/
theorem appendFile_logs {w : World} {directory : String} {bytes : ByteArray}
    (h : w.Logs directory bytes) (more : ByteArray) :
    ∃ w', World.host.appendFile (World.logPath directory) more w = (.ok (), w') ∧
      w'.Logs directory (bytes ++ more) := by
  have hbelow : (w.place (World.logPath directory)).dropLast = w.place directory := by
    rw [w.place_logPath, List.dropLast_concat]
  have hother : w.place directory ≠ w.place (World.logPath directory) := by
    rw [w.place_logPath]
    simp
  have happend := h.holds.append (hbelow ▸ h.present) more
  generalize hfiles : w.files.put (w.place (World.logPath directory)) (.file (bytes ++ more)) =
    files at happend
  refine ⟨{w with files := files}, ?_, ?_, ?_⟩
  · simp only [World.host, World.changing, happend]
  · rw [← hfiles]
    exact (w.files.get?_put_ne hother _).trans h.present
  · rw [← hfiles]
    exact w.files.holds_put h.holds.ne_nil _

/-- A line is appended, and then the error is reported if there is one. -/
theorem appendLine_logs {w : World} {directory : String} {bytes : ByteArray} {j : Journal}
    (h : w.Logs directory bytes) (hj : j.log = some (World.logPath directory)) (t : Task)
    (report : Option Files.Fault) :
    ∃ w', j.appendLine (World.reporting report) t w =
        (match report with
          | some f => .error f
          | none => .ok (), w') ∧
      w'.Logs directory (bytes ++ (t.line ++ "\n").toUTF8) := by
  obtain ⟨w', happend, hlogs⟩ := appendFile_logs h (t.line ++ "\n").toUTF8
  refine ⟨w', ?_, hlogs⟩
  rw [appendLine, hj]
  simp only [World.reporting, bind, StateT.bind, happend]
  cases report <;> rfl

/-- **An attempt appends its line to the log**, whether or not an error is reported. -/
theorem Attempt.store_logs (a : Attempt) {j : Journal} {w : World} {directory text : String}
    (h : w.Logs directory text.toUTF8) (hj : j.log = some (World.logPath directory)) :
    ∃ w', a.store j w = ((a.result j, a.after j), w') ∧
      w'.Logs directory (text ++ (a.task j).line ++ "\n").toUTF8 := by
  have hclock : World.Logs {w with clock := a.now} directory text.toUTF8 := ⟨h.present, h.holds⟩
  obtain ⟨w', hline, hlogs⟩ := appendLine_logs hclock hj (a.task j) a.report
  refine ⟨w', ?_, by rwa [← Text.toUTF8_append, ← String.append_assoc] at hlogs⟩
  have hnow : (World.reporting a.report).now {w with clock := a.now} =
      (a.now, {w with clock := a.now}) := rfl
  rw [task] at hline
  simp only [store, create, bind, StateT.bind, hnow, hline, result, after, task]
  cases a.report <;> rfl

/-- **Several attempts append a line each.** -/
theorem storeAll_logs {j : Journal} {w : World} {directory text : String} (attempts : List Attempt)
    (h : w.Logs directory text.toUTF8) (hj : j.log = some (World.logPath directory)) :
    ∃ w', storeAll j attempts w = ((results j attempts, afterAll j attempts), w') ∧
      w'.Logs directory (text ++ logOf (attempted j attempts)).toUTF8 := by
  induction attempts generalizing j w text with
  | nil => exact ⟨w, rfl, by simpa [attempted, logOf] using h⟩
  | cons a attempts ih =>
    obtain ⟨w', hstore, hlogs⟩ := a.store_logs h hj
    obtain ⟨w'', hrest, hlogs'⟩ := ih hlogs ((a.after_log j).trans hj)
    refine ⟨w'', ?_, ?_⟩
    · simp only [storeAll, bind, StateT.bind, hstore, hrest]
      rfl
    · simpa only [attempted, logOf, String.append_assoc] using hlogs'

/-- **After several attempts a new log has a line of each and nothing else.** -/
theorem storeAll_new {w w₁ w₂ : World} {directory : String} {j j' : Journal}
    {attempts : List Attempt} {answers : List (Except Failure Task)}
    (hlog : w.Logs directory .empty) (hopen : openAt World.host directory w = (.ok j, w₁))
    (hstore : storeAll j attempts w₁ = ((answers, j'), w₂)) :
    j = ofTasks (some (World.logPath directory)) [] ∧ answers = results j attempts ∧
      j' = afterAll j attempts ∧ w₂.Logs directory (logOf (attempted j attempts)).toUTF8 := by
  have hempty : w.Logs directory "".toUTF8 := hlog
  rw [openAt_logs hempty] at hopen
  cases hopen
  obtain ⟨w', hrun, hgrown⟩ := storeAll_logs attempts hempty
    (j := ofTasks (some (World.logPath directory)) []) rfl
  rw [String.empty_append] at hgrown
  cases hrun.symm.trans hstore
  exact ⟨rfl, rfl, rfl, hgrown⟩

end Ledger.Journal

end ChainAgent
