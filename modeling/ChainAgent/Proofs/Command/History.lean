import ChainAgent.Command.Dispatch
import ChainAgent.Proofs.Agent.Persisted
import ChainAgent.Proofs.Text.Preview
import Mathlib.Data.List.Forall2

/-! The list of the latest tasks.

Goals and replies are printed as previews, so they stay in their row. An action is printed as it is
stored, and a run stores its action only trimmed: every line break in it breaks its row
(`countP_historyLine`). The command does not ask the ledger whether it has tasks: it prints that
there are none whenever it lists none, so also for the limit zero (`history_listed`). -/
namespace ChainAgent

open Agent (Turn after after_grows givenBy mem_givenBy)
open Agent.Rehearsal (Stage fresh terse)
open Text (EndsRows flat_literal rows trim preview)

/-! ### How many tasks there are -/

namespace Ledger.Store

theorem mem_of_mem_recent {s : Store} {limit : Nat} {t : Task} (h : t ∈ s.recent limit) :
    t ∈ s.tasks := by
  cases s with
  | journal j => exact List.mem_reverse.mp (List.mem_of_mem_take (List.mem_mergeSort.mp h))
  | database d => exact List.mem_mergeSort.mp (List.mem_of_mem_take h)

theorem length_recent (s : Store) (limit : Nat) :
    (s.recent limit).length = min limit s.tasks.length := by
  cases s with
  | journal j =>
    show ((j.tasks.reverse.take limit).mergeSort newestFirst).length = _
    rw [List.length_mergeSort, List.length_take, List.length_reverse]
    rfl
  | database d =>
    show ((d.table.rows.mergeSort newestFirst).take limit).length = _
    rw [List.length_take, List.length_mergeSort]
    rfl

end Ledger.Store

namespace Command

/-! ### What is printed of a task -/

theorem countP_action {ends : Char → Bool} (hends : EndsRows ends) (t : Task) :
    (if t.chainRequested then " [" ++ t.chainAction ++ "]" else "").toList.countP ends =
      t.chainAction.toList.countP ends := by
  have hopening : (" [".toList).countP ends = 0 := Text.countP_flat hends (flat_literal (by decide))
  have hclosing : ("]".toList).countP ends = 0 := Text.countP_flat hends (flat_literal (by decide))
  split
  · simp only [String.toList_append, List.countP_append, hopening, hclosing, Nat.zero_add,
      Nat.add_zero]
  · rename_i hnone
    have hempty : t.chainAction = "" := by simpa [Task.chainRequested] using hnone
    rw [hempty]

/-- The line breaks in a task's line are those in its action. -/
theorem countP_historyLine {ends : Char → Bool} (hends : EndsRows ends) (t : Task) :
    (historyLine t).toList.countP ends = t.chainAction.toList.countP ends := by
  have hhash : ("#".toList).countP ends = 0 := Text.countP_flat hends (flat_literal (by decide))
  have hspace : (" ".toList).countP ends = 0 := Text.countP_flat hends (flat_literal (by decide))
  have harrow : (" -> ".toList).countP ends = 0 := Text.countP_flat hends (flat_literal (by decide))
  simp only [historyLine, String.toList_append, List.countP_append, hhash, hspace, harrow,
    Text.countP_flat hends (Text.flat_integer _), Text.countP_flat hends (Text.flat_preview _ _),
    countP_action hends t, Nat.zero_add, Nat.add_zero]

/-- A task's line begins with its id. -/
theorem historyLine_id (t : Task) :
    ∃ said, historyLine t = "#" ++ toString t.id.toInt ++ " " ++ said := by
  refine ⟨preview t.goal 60 ++ ((if t.chainRequested then " [" ++ t.chainAction ++ "]" else "") ++
    (" -> " ++ preview t.reply 80)), ?_⟩
  simp only [historyLine, String.append_assoc]

/-! ### What is printed of a ledger -/

/-- A row for each task, in their order, beginning with the task's id. -/
def TaskRows (ts : List Task) (found : List String) : Prop :=
  List.Forall₂ (fun t row => ∃ said, row = "#" ++ toString t.id.toInt ++ " " ++ said) ts found

theorem taskRows_lines (ts : List Task) : TaskRows ts (ts.map historyLine) := by
  rw [TaskRows, List.forall₂_map_right_iff, List.forall₂_same]
  exact fun t _ => historyLine_id t

def noTasks : String := "No tasks recorded yet.\n"

theorem historyText_of_ne_nil {ts : List Task} (h : ts ≠ []) :
    historyText ts = String.join ((ts.map historyLine).map (· ++ "\n")) := by
  rw [historyText, List.isEmpty_eq_false_iff.mpr h, List.map_map]
  rfl

/-- The message for an empty list is printed for no other list. -/
theorem historyText_eq_noTasks {ts : List Task} : historyText ts = noTasks ↔ ts = [] := by
  constructor
  · intro htext
    cases ts with
    | nil => rfl
    | cons t ts =>
      obtain ⟨said, hsaid⟩ := historyLine_id t
      rw [historyText_of_ne_nil (List.cons_ne_nil t ts), List.map_cons, List.map_cons,
        String.join_cons, hsaid] at htext
      have hfirst := congrArg (·.toList.head?) htext
      simp [noTasks] at hfirst
  · rintro rfl
    rfl

/-- **The listed tasks have a row each, in their order, if and only if no listed action has a line
break.** Every line break in one is a row more. -/
theorem rows_historyText {ends : Char → Bool} (hends : EndsRows ends) {ts : List Task}
    (hsome : ts ≠ []) :
    ∃ found, rows ends (historyText ts) = found ++ [""] ∧
      found.length = ts.length + (ts.map fun t => t.chainAction.toList.countP ends).sum ∧
      (TaskRows ts found ↔ ∀ t ∈ ts, ∀ c ∈ t.chainAction.toList, ends c = false) := by
  have hrows := Text.rows_lines hends (ts.map historyLine)
  have hlength := @Text.length_flatMap_rows ends (ts.map historyLine)
  rw [List.length_map, List.map_map] at hlength
  have hcount : (fun l => l.toList.countP ends) ∘ historyLine =
      fun t => t.chainAction.toList.countP ends := funext fun t => countP_historyLine hends t
  rw [hcount] at hlength
  refine ⟨_, (congrArg (rows ends) (historyText_of_ne_nil hsome)).trans hrows, hlength, ?_⟩
  have hwhole : (∀ l ∈ ts.map historyLine, ∀ c ∈ l.toList, ends c = false) ↔
      ∀ t ∈ ts, ∀ c ∈ t.chainAction.toList, ends c = false := by
    simp only [List.forall_mem_map, ← Bool.not_eq_true, ← List.countP_eq_zero,
      countP_historyLine hends]
  rw [← hwhole]
  constructor
  · intro htasks
    rw [← Text.length_flatMap_rows_eq_iff, List.length_map]
    exact (List.Forall₂.length_eq htasks).symm
  · intro hnone
    rw [Text.flatMap_rows fun l hl => Text.rows_of_no_end (hnone l hl)]
    exact taskRows_lines ts

/-- **The tasks that runs have stored are listed a row each if and only if no listed action has a
line break, and with the limit zero the list says that there are none.** The actions are the trimmed
actions of the runs. -/
theorem history_listed {σ : Type} {store : σ → Ledger.Store} {s : σ} (hnew : (store s).IsNew)
    {turns : List (Turn σ)} (hturns : ∀ turn ∈ turns, turn.agent.StoresIn store)
    {ends : Char → Bool} (hends : EndsRows ends) (limit : Nat) :
    let ledger := store (after s turns)
    let listed := ledger.recent limit
    (∀ {ω : Type} (h : Host (StateM ω)) (c : Settings) (w w' : ω),
      Ledger.create h c w = (.ok ledger, w') →
        perform h c (.history limit) w = (.printed (historyText listed), w')) ∧
    listed.length = min limit (givenBy s turns).length ∧
    (∀ t ∈ listed, ∃ front turn back, turns = front ++ turn :: back ∧
      turn.given (after s front) = some t ∧ t.chainAction = trim turn.action) ∧
    (historyText listed = noTasks ↔ limit = 0 ∨ givenBy s turns = []) ∧
    (listed ≠ [] → ∃ found, rows ends (historyText listed) = found ++ [""] ∧
      found.length = listed.length + (listed.map fun t => t.chainAction.toList.countP ends).sum ∧
      (TaskRows listed found ↔ ∀ t ∈ listed, ∀ c ∈ t.chainAction.toList, ends c = false)) := by
  intro ledger listed
  obtain ⟨htasks, -⟩ := after_grows hturns s
  rw [hnew.tasks, List.nil_append] at htasks
  have hlength : listed.length = min limit (givenBy s turns).length := by
    rw [← htasks]
    exact ledger.length_recent limit
  refine ⟨fun h c w w' hopen => ?_, hlength, fun t ht => ?_, ?_, rows_historyText hends⟩
  · show onLedger h c _ w = _
    rw [onLedger, bind_apply, hopen]
    rfl
  · have hmem : t ∈ (store (after s turns)).tasks := Ledger.Store.mem_of_mem_recent ht
    rw [htasks] at hmem
    obtain ⟨front, turn, back, rfl, hgiven⟩ := mem_givenBy.mp hmem
    have hstores := hturns turn (List.mem_append_right _ List.mem_cons_self)
    obtain ⟨-, -, hreports⟩ := turn.grows hstores (after s front)
    exact ⟨front, turn, back, rfl, hgiven, (hreports t hgiven).chainAction⟩
  · rw [historyText_eq_noTasks, ← List.length_eq_zero_iff, hlength, Nat.min_eq_zero_iff,
      List.length_eq_zero_iff]

/-- A run with an action in two lines. -/
def brokenTurn : Turn Stage :=
  ⟨Agent.Rehearsal.agent (terse ⟨.echo, some ⟨1⟩, ⟨8⟩⟩ (.error .notConfigured)), {}, "go",
    " bal\nance ", ""⟩

/-- Its task is listed in two rows, and with the limit zero the list says that there are no
tasks. -/
theorem history_listed_broken :
    let ledger := (after fresh [brokenTurn]).store
    ∃ t found, ledger.tasks = [t] ∧ ledger.recent 10 = [t] ∧ t.chainAction = "bal\nance" ∧
      rows (· == '\n') (historyText [t]) = found ++ [""] ∧ found.length = 2 ∧ ¬ TaskRows [t] found ∧
      historyText (ledger.recent 0) = noTasks := by
  intro ledger
  have hnew : (Stage.store fresh).IsNew := .database none 0
  have hturns : ∀ turn ∈ [brokenTurn], turn.agent.StoresIn Stage.store := by
    intro turn hturn
    rw [List.mem_singleton.mp hturn]
    exact Agent.Rehearsal.agent_storesIn _ fun _ _ _ => rfl
  obtain ⟨t, hgiven, haction⟩ : ∃ t, givenBy fresh [brokenTurn] = [t] ∧
      t.chainAction = "bal\nance" := ⟨_, rfl, by decide +kernel⟩
  have htasks : ledger.tasks = [t] := by
    obtain ⟨htasks, -⟩ := after_grows hturns fresh
    rwa [hnew.tasks, List.nil_append, hgiven] at htasks
  obtain ⟨-, hlength, -, -, hlisted⟩ := history_listed hnew hturns Text.endsRows_feed 10
  obtain ⟨-, -, -, hnone, -⟩ := history_listed hnew hturns Text.endsRows_feed 0
  obtain ⟨u, hu⟩ : ∃ u, ledger.recent 10 = [u] := by
    rw [hgiven] at hlength
    exact List.length_eq_one_iff.mp hlength
  obtain rfl : u = t := by
    have hmem : u ∈ ledger.tasks := Ledger.Store.mem_of_mem_recent (hu ▸ List.mem_singleton_self u)
    rwa [htasks, List.mem_singleton] at hmem
  obtain ⟨found, hrows, hfound, htaskRows⟩ := hlisted (by rw [hu]; exact List.cons_ne_nil u [])
  rw [hu] at hrows hfound htaskRows
  refine ⟨u, found, htasks, hu, haction, hrows, ?_, fun hone => ?_, hnone.mpr (.inl rfl)⟩
  · rw [hfound, List.length_singleton, List.map_singleton, haction]
    decide
  · have hfeed := htaskRows.mp hone u (List.mem_singleton_self u) '\n' (by rw [haction]; decide)
    cases hfeed

end Command

end ChainAgent
