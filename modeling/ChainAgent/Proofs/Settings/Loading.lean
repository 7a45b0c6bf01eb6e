import ChainAgent.Proofs.Host.World
import ChainAgent.Proofs.Settings.Acceptance
import ChainAgent.Settings.Loading

/-! Loading of a configuration.

A configuration is loaded if its file can be parsed and the result with the environment applied is
valid (`loadFrom_eq_ok`). The variables that override a field have their values in the environment
(`get?_changes`). -/
namespace ChainAgent

open Settings (Variables variableNames)

/-- The environment variables of a machine that override a field. -/
def World.changes (w : World) : Variables :=
  variableNames.filterMap fun name => (w.valueOf name).map (name, ·)

namespace Settings

/-- Each of these variables has its value in the environment. -/
theorem get?_changes (w : World) {name : String} (h : name ∈ variableNames) :
    w.changes.get? name = w.valueOf name := by
  have hpair (n : String) : ((w.valueOf n).map (n, ·)).any (·.1 == name) =
      ((w.valueOf n).isSome && n == name) := by
    cases w.valueOf n <;> rfl
  rw [World.changes, Variables.get?, List.find?_filterMap]
  simp only [hpair]
  cases hvalue : w.valueOf name with
  | none =>
    rw [List.find?_eq_none.mpr]
    · rfl
    · rintro n - hn
      obtain ⟨hset, rfl⟩ : (w.valueOf n).isSome = true ∧ n = name := by simpa using hn
      rw [hvalue] at hset
      cases hset
  | some value =>
    cases hfind : variableNames.find? fun n => (w.valueOf n).isSome && n == name with
    | none => exact absurd (List.find?_eq_none.mp hfind name h) (by simp [hvalue])
    | some n =>
      obtain ⟨-, rfl⟩ : (w.valueOf n).isSome = true ∧ n = name := by
        simpa using List.find?_some hfind
      simp [hvalue]

theorem variablesOf_eq (w : World) : variablesOf World.host w = (w.changes, w) := by
  rw [variablesOf, bind_apply, World.environments_eq, ← List.map_prod_left_eq_zip]
  simp only [List.filterMap_map]
  rfl

/-- A configuration with its file path. -/
def placed (s : Settings) (path : String) : Settings :=
  {s with path := path, baseDir := (Files.Path.parent? path).getD ""}

theorem accepted_eq (w : World) (s : Settings) :
    accepted World.host s w =
      (match (s.overridden w.changes).validate with
        | .ok _ => .ok (s.overridden w.changes)
        | .error f => .error (.refused f), w) := by
  rw [accepted, bind_apply, variablesOf_eq]
  cases (s.overridden w.changes).validate <;> rfl

/-- **A configuration is loaded if its file can be parsed and the result with the environment
applied is valid.** -/
theorem loadFrom_eq_ok {w w' : World} {path : String} {s : Settings} :
    loadFrom World.host path w = (.ok s, w') ↔
      w' = w ∧ ∃ text file, World.host.readText path w = (.ok text, w) ∧
        parse text = some file ∧ (file.placed path).overridden w.changes = s ∧
          s.validate = .ok () := by
  have hread := w.readText_eq path
  rw [loadFrom, bind_apply, hread]
  cases (w.files.read (w.place path)).bind _ with
  | error f =>
    refine iff_of_false (fun h => ?_) ?_
    · cases h
    · rintro ⟨-, text, file, h, -⟩
      cases h
  | ok text =>
    cases hparse : parse text with
    | none =>
      refine iff_of_false (fun h => ?_) ?_
      · simp only [hparse] at h
        cases h
      · rintro ⟨-, text, file, h, hfile, -⟩
        cases h
        cases hparse.symm.trans hfile
    | some file =>
      have haccepted := accepted_eq w (file.placed path)
      simp only [hparse]
      rw [placed] at haccepted
      rw [haccepted, ← placed]
      constructor
      · intro h
        split at h
        · rename_i hvalid
          cases h
          exact ⟨rfl, text, file, rfl, hparse, rfl, hvalid⟩
        · cases h
      · rintro ⟨rfl, text', file', htext, hfile, rfl, hvalid⟩
        cases htext
        cases hparse.symm.trans hfile
        rw [hvalid]

/-- A file that is valid with the environment applied is loaded. -/
theorem loadFrom_of_isOk {w : World} {path text : String} {file : Settings}
    (hread : World.host.readText path w = (.ok text, w)) (hfile : parse text = some file)
    (hvalid : ((file.placed path).overridden w.changes).validate.isOk = true) :
    loadFrom World.host path w = (.ok ((file.placed path).overridden w.changes), w) :=
  loadFrom_eq_ok.mpr ⟨rfl, text, file, hread, hfile, rfl, validate_of_isOk hvalid⟩

end Settings

/-! ### A machine with one file -/

def World.configured (text : String) (environment : List (String × String)) : World :=
  {World.bare with
    files := ⟨[(["config.toml"], .file text.toUTF8)]⟩
    environment := environment}

theorem World.readText_configured (text : String) (environment : List (String × String)) :
    World.host.readText "config.toml" (World.configured text environment) =
      (.ok text, World.configured text environment) := by
  have hplace : (World.configured text environment).place "config.toml" = ["config.toml"] := by
    show Files.Path.components "/" "config.toml" = _
    decide
  exact World.readText_file (by rw [hplace]; rfl)

end ChainAgent
