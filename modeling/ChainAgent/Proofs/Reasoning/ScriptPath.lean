import ChainAgent.Proofs.Files.Walk
import ChainAgent.Proofs.Reasoning.Script
import ChainAgent.Proofs.Settings.Loading
import ChainAgent.Reasoning.Backend

/-! The path of a script.

The path of a script is joined to the configuration's directory, and its interpreter resolves it
from its own working directory. A relative directory is therefore applied twice, so the interpreter
opens the configured script if and only if the path is absolute or leads to one place from both
directories (`opens_iff`). The script path is also the one configured path in which `~` is not
expanded (`resolvePath_eq_resolve_iff`). -/
namespace ChainAgent

open Files.Path (FromHome climbs components components_eq_iff components_join_empty
  components_join_join expandHome expandHome_eq_self expandHome_of_fromHome isAbsolute
  isAbsolute_join isAbsolute_parent join join_append join_home_eq_iff names parent?
  walk_of_parent?_eq_none)
open Reasoning (Script createBackend)

namespace World

/-- The place that an interpreter opens: its argument, resolved from its working directory. -/
def opens (w : World) (script : Script) : List String :=
  components (join w.directory script.directory) script.path

/-- The place of the configured script: its path, resolved from the directory of the configuration
file. -/
def configuredScript (w : World) (path : String) (s : Settings) : List String :=
  components (join w.directory ((parent? path).getD "")) (Text.trim s.reasoning.script.scriptPath)

/-- An interpreter starts for a script. -/
structure Starts (w : World) (script : Script) (interpreter : World.Interpreter) : Prop where
  directory_named : script.directory ≠ ""
  directory_present : w.files.isDirectory (w.place script.directory) = true
  interpreter_present :
    (w.interpreters.find? (·.1 == script.interpreter)).map (·.2) = some interpreter

end World

namespace Reasoning.Script

/-! ### The path -/

/-- **A script's path is resolved as every other path, except for one in the home directory.** -/
theorem resolvePath_eq_resolve_iff (s : Settings) (home : Option String) (raw : String) :
    (resolvePath s.baseDir raw = s.resolve home raw ↔
      ∀ h rest, home = some h → FromHome (Text.trim raw) rest →
        join s.baseDir h = join s.baseDir "~") ∧
      ∀ h rest, home = some h → FromHome (Text.trim raw) rest →
        s.resolve home raw = join s.baseDir (h ++ rest) ∧
          resolvePath s.baseDir raw = join s.baseDir "~" ++ rest := by
  have hscript : resolvePath s.baseDir raw = join s.baseDir (Text.trim raw) := rfl
  have hother : s.resolve home raw = join s.baseDir (expandHome home (Text.trim raw)) := rfl
  rw [hscript, hother]
  generalize Text.trim raw = p
  refine ⟨?_, ?_⟩
  · by_cases hfrom : ∃ h rest, home = some h ∧ FromHome p rest
    · obtain ⟨h, rest, rfl, hrest⟩ := hfrom
      rw [expandHome_of_fromHome hrest, hrest.1, eq_comm, join_home_eq_iff _ _ hrest.2]
      constructor
      · rintro heq h' - hsome -
        cases hsome
        exact heq
      · exact fun hall => hall h rest rfl ⟨rfl, hrest.2⟩
    · have hself : expandHome home p = p := by
        cases home with
        | none => rfl
        | some h => exact expandHome_eq_self (fun rest hrest => hfrom ⟨h, rest, rfl, hrest⟩) _
      rw [hself]
      exact iff_of_true rfl fun h rest hsome hrest => (hfrom ⟨h, rest, hsome, hrest⟩).elim
  · rintro h rest rfl hrest
    rw [expandHome_of_fromHome hrest, hrest.1, join_append _ (by decide : "~" ≠ "")]
    exact ⟨rfl, rfl⟩

/-- A script path with `~` is resolved to a directory named `~`. -/
theorem resolvePath_eq_resolve_iff_bridge :
    resolvePath "/etc/chainpilot" " ~/bridge.py" = "/etc/chainpilot/~/bridge.py" ∧
      Settings.resolve {baseDir := "/etc/chainpilot"} (some "/home/tester") " ~/bridge.py" =
        "/home/tester/bridge.py" := by
  have hhome : FromHome (Text.trim " ~/bridge.py") "/bridge.py" :=
    ⟨by decide +kernel, .inr (by decide)⟩
  obtain ⟨hother, hscript⟩ := (resolvePath_eq_resolve_iff {baseDir := "/etc/chainpilot"}
    (some "/home/tester") " ~/bridge.py").2 "/home/tester" "/bridge.py" rfl hhome
  exact ⟨hscript.trans (by decide +kernel), hother.trans (by decide +kernel)⟩

/-! ### Running -/

/-- An interpreter that prints its file replies with the content of the file that it opens. -/
theorem generate_printsFile {w : World} {script : Script} {bytes : ByteArray}
    (hstarts : w.Starts script .printsFile) (hfile : w.files.read (w.opens script) = .ok bytes)
    (r : Request) :
    script.generate World.host r w = (replyOf (Text.decodeLossy bytes), w) := by
  obtain ⟨hnamed, hpresent, hinterpreter⟩ := hstarts
  obtain ⟨⟨name, _⟩, hfind, rfl⟩ := Option.map_eq_some_iff.mp hinterpreter
  have hnamed : script.directory.isEmpty = false := by simpa using hnamed
  rw [World.opens] at hfile
  have hrun (input : String) :
      World.host.run (script.child input) w = (.ok ⟨.exited 0, bytes, .empty⟩, w) := by
    show World.runChild _ w = _
    simp only [World.runChild, child, hnamed, hpresent, hfind, hfile]
    rfl
  rw [generate_apply, World.now_eq, hrun]
  have hconcluded := concluded_exited (c := ⟨.exited 0, bytes, .empty⟩) rfl
  simp only [hconcluded]

/-- No interpreter starts in a directory with an empty name. -/
theorem generate_nowhere {script : Script} (hdirectory : script.directory = "") (w : World)
    (r : Request) :
    script.generate World.host r w =
      (.error (.process ("failed to spawn " ++ script.interpreter ++ " " ++ script.path ++ ": " ++
        Files.Fault.missing.message)), w) := by
  have hrun (input : String) :
      World.host.run (script.child input) w = (.error .missing, w) := by
    show World.runChild _ w = _
    simp [World.runChild, child, hdirectory]
  rw [generate_apply, World.now_eq, hrun]

/-! ### Loading -/

/-- The directory of a configuration is absolute exactly if the file's path is. -/
theorem isAbsolute_baseDir {w : World} {path text : String}
    (h : World.host.readText path w = (.ok text, w)) :
    isAbsolute ((parent? path).getD "") = isAbsolute path := by
  obtain ⟨-, bytes, hfile, -⟩ := World.readText_eq_ok h
  cases hparent : parent? path with
  | some directory => exact isAbsolute_parent hparent
  | none =>
    -- a path without a directory that is absolute is the root, which is no file
    cases habsolute : isAbsolute path with
    | false => rfl
    | true =>
      have hroot : w.place path = [] := by
        rw [World.place, Files.Path.components_eq, habsolute, walk_of_parent?_eq_none hparent]
        rfl
      rw [hroot] at hfile
      cases hfile

theorem baseDir_of_loaded {w w' : World} {path : String} {s : Settings}
    (h : Settings.loadFrom World.host path w = (.ok s, w')) :
    s.baseDir = (parent? path).getD "" ∧ isAbsolute s.baseDir = isAbsolute path := by
  obtain ⟨-, text, file, hread, -, rfl, -⟩ := Settings.loadFrom_eq_ok.mp h
  exact ⟨rfl, isAbsolute_baseDir hread⟩

theorem createBackend_script {s : Settings} (hprovider : s.reasoning.provider = "script")
    (w : World) :
    createBackend World.host s w = (.ok (.script (.ofSettings s w.home)), w) := by
  rw [createBackend, hprovider]
  rfl

/-- **An interpreter opens the configured script if and only if its path is absolute or leads to one
place from the interpreter's working directory and from the program's.** -/
theorem opens_iff {w w' : World} {path : String} {s : Settings}
    (hload : Settings.loadFrom World.host path w = (.ok s, w'))
    (hprovider : s.reasoning.provider = "script") :
    ∃ script, createBackend World.host s w' = (.ok (.script script), w) ∧
      (w.opens script = w.configuredScript path s ↔
        isAbsolute path = true ∨ isAbsolute (Text.trim s.reasoning.script.scriptPath) = true ∨
          (w.place script.directory).rdrop (climbs (names script.path)) =
            (w.place "").rdrop (climbs (names script.path))) ∧
      (script.directory = "" → ∀ r, script.generate World.host r w =
        (.error (.process ("failed to spawn " ++ script.interpreter ++ " " ++ script.path ++ ": " ++
          Files.Fault.missing.message)), w)) ∧
      ∀ bytes, w.Starts script .printsFile → w.files.read (w.opens script) = .ok bytes →
        ∀ r, script.generate World.host r w = (replyOf (Text.decodeLossy bytes), w) := by
  obtain ⟨hbase, habsolute⟩ := baseDir_of_loaded hload
  obtain ⟨rfl, -⟩ := Settings.loadFrom_eq_ok.mp hload
  refine ⟨_, createBackend_script hprovider w', ?_, fun hdirectory => generate_nowhere hdirectory w',
    fun bytes hstarts hfile => generate_printsFile hstarts hfile⟩
  generalize hscript : Script.ofSettings s w'.home = script
  have hpath : script.path = join s.baseDir (Text.trim s.reasoning.script.scriptPath) := by
    simp only [← hscript, ofSettings, resolvePath]
  have hconfigured : w'.configuredScript path s = components w'.directory script.path := by
    rw [World.configuredScript, ← hbase, components_join_join, hpath]
  have hstarts : isAbsolute script.path = true ↔
      isAbsolute path = true ∨ isAbsolute (Text.trim s.reasoning.script.scriptPath) = true := by
    rw [hpath, isAbsolute_join, habsolute, Bool.or_eq_true]
  rw [World.opens, hconfigured, components_eq_iff, components_join_empty, hstarts, or_assoc,
    World.place, World.place]

/-- A script next to a configuration file in a relative directory is looked for in that directory
below itself. -/
theorem opens_iff_beside :
    ∃ s script, ∃ w : World, Settings.loadFrom World.host "conf/config.toml" w = (.ok s, w) ∧
      createBackend World.host s w = (.ok (.script script), w) ∧
      w.configuredScript "conf/config.toml" s = ["conf", "r.json"] ∧
      w.opens script = ["conf", "conf", "r.json"] ∧
      w.opens script ≠ w.configuredScript "conf/config.toml" s := by
  let text := "[reasoning.script]\ninterpreter = 'cat'\nscript_path = 'r.json'\n"
  let w : World := {World.bare with
    files := ⟨[(["conf"], .directory), (["conf", "config.toml"], .file text.toUTF8)]⟩
    interpreters := [("cat", .printsFile)]}
  have hplace : w.place "conf/config.toml" = ["conf", "config.toml"] := by decide +kernel
  have hread : World.host.readText "conf/config.toml" w = (.ok text, w) :=
    World.readText_file (by rw [hplace]; rfl)
  have hparse : (Settings.parse text).any (fun file =>
      let s := (file.placed "conf/config.toml").overridden w.changes
      s.reasoning.provider == "script" && s.reasoning.script.scriptPath == "r.json" &&
        s.reasoning.script.workingDir.isNone && s.validate.isOk) = true := by
    decide +kernel
  obtain ⟨file, hfile, hsays⟩ := (Option.any_eq_true _ _).mp hparse
  simp only [Bool.and_eq_true, Option.isNone_iff_eq_none, beq_iff_eq] at hsays
  obtain ⟨⟨⟨hprovider, hpath⟩, hdirectory⟩, hvalid⟩ := hsays
  have hload := Settings.loadFrom_of_isOk hread hfile hvalid
  generalize (file.placed "conf/config.toml").overridden w.changes = s at *
  obtain ⟨script, hbackend, hopens, -⟩ := opens_iff hload hprovider
  obtain rfl : Script.ofSettings s w.home = script := by
    rw [createBackend_script hprovider] at hbackend
    cases hbackend
    rfl
  obtain ⟨hbase, -⟩ := baseDir_of_loaded hload
  have hbase : s.baseDir = "conf" := hbase.trans (by decide +kernel)
  have hscript : (Script.ofSettings s w.home).path = "conf/r.json" ∧
      (Script.ofSettings s w.home).directory = "conf" := by
    simp only [ofSettings, hbase, hpath, hdirectory]
    decide +kernel
  refine ⟨s, _, w, hload, hbackend, ?_, ?_, ?_⟩
  · rw [World.configuredScript, hpath]
    decide +kernel
  · rw [World.opens, hscript.1, hscript.2]
    decide +kernel
  · rw [Ne, hopens, hpath, hscript.1, hscript.2]
    decide +kernel

end Reasoning.Script

end ChainAgent
