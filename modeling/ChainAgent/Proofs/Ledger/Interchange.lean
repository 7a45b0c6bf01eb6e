import ChainAgent.Proofs.Ledger.Requests
import ChainAgent.Proofs.Ledger.TableFile

/-! Equivalence of both kinds of ledger.

A ledger in memory is that of its tasks and its log has their lines (`Journal.Keeps`); a table and
its file are those of its rows (`Database.Keeps`). Both simulate the list of tasks in every request,
reopening included, so they answer every sequence of requests alike (`kinds_agree`). They differ
only in the state besides the tasks: one has its next id and last time, the other its sequence. -/
namespace ChainAgent

/-- A machine without failing writes. -/
theorem World.reporting_none : World.reporting none = World.host := by
  have happend (path : String) (bytes : ByteArray) (w : World) :
      (World.reporting none).appendFile path bytes w = World.host.appendFile path bytes w := by
    show (World.host.appendFile path bytes >>= _) w = _
    rw [bind_apply]
    rcases World.host.appendFile path bytes w with ⟨_ | ⟨⟩, w'⟩ <;> rfl
  have hsame : (World.reporting none).appendFile = World.host.appendFile := by
    funext path bytes w
    exact happend path bytes w
  show {World.host with appendFile := (World.reporting none).appendFile} = World.host
  rw [hsame]

namespace Ledger

namespace Journal

/-- Opens the directory of a ledger again. -/
def reopen (directory : String) : StateM World (Except Failure Store) := do
  return (← openAt World.host directory).map .journal

variable {tasks : List Task}

theorem ofTasks_counted (log : Option String) (h : Counted tasks) (hfew : tasks.length < 2 ^ 63) :
    (ofTasks log tasks).tasks = tasks ∧ (ofTasks log tasks).nextId = 1 + .ofNat tasks.length ∧
      (ofTasks log tasks).lastCreatedAt = (latest (tasks.map (·.createdAt))).getD 0 := by
  have htasks := ofTasks_of_ascending log (h.ascending hfew)
  refine ⟨htasks, ?_, ?_⟩
  · rw [ofTasks_nextId, htasks]
    cases tasks using List.reverseRecOn with
    | nil => rfl
    | append_singleton front last =>
      have hids := h.ids
      rw [List.map_append, List.length_append, List.length_singleton, List.range_succ,
        List.map_append] at hids
      have hlast : last.id = 1 + .ofNat front.length :=
        List.singleton_inj.mp (List.append_inj' hids rfl).2
      rw [List.getLast?_concat, List.length_append, List.length_singleton, ofNat_succ]
      show last.id + 1 = _
      rw [hlast, Int64.add_assoc, Int64.add_assoc, Int64.add_comm (.ofNat _)]
  · show (latest ((ofTasks log tasks).tasks.map (·.createdAt))).getD 0 = _
    rw [htasks]

theorem logOf_append (front back : List Task) :
    logOf (front ++ back) = logOf front ++ logOf back := by
  induction front with
  | nil => simp [logOf]
  | cons t front ih => simp [logOf, ih, String.append_assoc]

/-- The latest time after a create is that of the new task. -/
theorem latest_next (tasks : List Task) (d : Task.Draft) (now : Int64) :
    latest ((tasks ++ [nextTask tasks d now]).map (·.createdAt)) =
      some (nextTask tasks d now).createdAt := by
  rw [List.map_append, List.map_singleton, latest_concat]
  have htime : (nextTask tasks d now).createdAt =
      later now ((latest (tasks.map (·.createdAt))).getD 0) := rfl
  rw [htime]
  cases latest (tasks.map (·.createdAt)) with
  | none => rfl
  | some m =>
    have hle := le_later_right now m
    show some (later m (later now m)) = some (later now m)
    generalize later now m = t at hle ⊢
    unfold later
    split
    · rfl
    · rename_i hnot
      rw [Int64.le_antisymm hle (Int64.not_lt.mp hnot)]

/-- The ledger of tasks with consecutive ids, with one more task. -/
theorem accept_ofTasks (log : Option String) (h : Counted tasks) (d : Task.Draft) (now : Int64)
    (hfew : tasks.length + 1 < 2 ^ 63) :
    (ofTasks log tasks).next d now = nextTask tasks d now ∧
      (ofTasks log tasks).accept (nextTask tasks d now) =
        ofTasks log (tasks ++ [nextTask tasks d now]) := by
  obtain ⟨htasks, hid, hlast⟩ := ofTasks_counted log h (by omega)
  have hlength : (tasks ++ [nextTask tasks d now]).length = tasks.length + 1 :=
    List.length_append
  obtain ⟨htasks', hid', hlast'⟩ := ofTasks_counted log (h.next d now) (by omega)
  constructor
  · rw [Journal.next, hid, hlast]
    rfl
  · rw [latest_next] at hlast'
    rw [hlength, ofNat_succ] at hid'
    have hfields (j : Journal) : j = ⟨j.log, j.tasks, j.nextId, j.lastCreatedAt⟩ := rfl
    rw [hfields (ofTasks log (tasks ++ _)), htasks', hid', hlast', accept, htasks, hid,
      Int64.add_assoc, Int64.add_assoc, Int64.add_comm 1 (.ofNat _)]
    rfl

/-- Binary search and linear search find the same. -/
theorem get_eq_lookUp {j : Journal} (h : Ascending j.tasks) (id : Int64) :
    j.get id = lookUp j.tasks id := by
  unfold lookUp
  cases hfind : j.tasks.find? (·.id == id) with
  | some t =>
    have hid : t.id = id := by simpa using List.find?_some hfind
    exact (get_eq_ok_iff h).mpr ⟨List.mem_of_find?_eq_some hfind, hid⟩
  | none =>
    refine get_eq_error fun t hget => ?_
    obtain ⟨ht, hid⟩ := (get_eq_ok_iff h).mp hget
    exact absurd hid (by simpa using List.find?_eq_none.mp hfind t ht)

/-- A log and the ledger of its tasks. -/
structure Keeps (directory : String) (tasks : List Task) (s : Store) (w : World) : Prop where
  store : s = .journal (ofTasks (some (World.logPath directory)) tasks)
  logs : w.Logs directory (logOf tasks).toUTF8

/-- **A ledger in memory answers like its list of tasks**, also after reopening. -/
theorem serves (directory : String) : Serves (reopen directory) (Keeps directory) where
  clock := fun now h => ⟨h.store, ⟨h.logs.present, h.logs.holds⟩⟩
  shows := by
    rintro tasks _ w ⟨rfl, -⟩ hcounted hfew
    obtain ⟨htasks, -⟩ := ofTasks_counted (some (World.logPath directory)) hcounted hfew
    have hids := hcounted.ascending hfew
    have hsteady := hcounted.steady hfew
    rw [← htasks] at hids hsteady
    exact {
      get := fun id => (get_eq_lookUp hids id).trans (by rw [htasks])
      recent := fun limit => (recent_of_steady hids.nodup limit hsteady).trans (by rw [htasks])
      count := congrArg List.length htasks
      stats := congrArg Stats.of htasks }
  create := by
    rintro tasks _ w d ⟨rfl, hlogs⟩ hcounted hfew
    obtain ⟨hnext, haccept⟩ :=
      accept_ofTasks (some (World.logPath directory)) hcounted d w.clock hfew
    obtain ⟨w', hstore, hlogs'⟩ := Attempt.store_logs ⟨w.clock, d, none⟩ hlogs
      (j := ofTasks (some (World.logPath directory)) tasks) rfl
    have hcreate : (ofTasks (some (World.logPath directory)) tasks).create World.host d w =
        ((.ok (nextTask tasks d w.clock),
          ofTasks (some (World.logPath directory)) (tasks ++ [nextTask tasks d w.clock])), w') := by
      rw [← haccept, ← hnext, ← World.reporting_none]
      exact hstore
    refine ⟨_, w', ?_, ⟨rfl, ?_⟩⟩
    · rw [Store.create, bind_apply, hcreate]
      rfl
    · rw [logOf_append, logOf, logOf, String.append_empty, ← hnext, ← String.append_assoc]
      exact hlogs'
  reopen := by
    rintro tasks _ w ⟨rfl, hlogs⟩ hcounted hfew
    refine ⟨_, w, ?_, ⟨rfl, hlogs⟩⟩
    rw [reopen, bind_apply, openAt_logs hlogs, replay_logOf]
    rfl

end Journal

/-! ### Tables -/

namespace Database

/-- Opens the file of a table again. -/
def reopen (path : String) : StateM World (Except Failure Store) := do
  return (← openAt World.host path).map .database

/-- The table of some tasks, created at a time. -/
def tableOf (started : Int64) (tasks : List Task) : Table :=
  {Table.blank.migrated started with rows := tasks, sequence := .ofNat tasks.length}

/-- Migrating a table again changes nothing. -/
theorem migrated_tableOf (started now : Int64) (tasks : List Task) :
    (tableOf started tasks).migrated now = tableOf started tasks := rfl

/-- A table of tasks with consecutive ids, with one more task. -/
theorem insert_tableOf {tasks : List Task} (started : Int64) (d : Task.Draft) (now : Int64)
    (hfew : tasks.length + 1 < 2 ^ 63) :
    (tableOf started tasks).insert d now =
      .ok (nextTask tasks d now, tableOf started (tasks ++ [nextTask tasks d now])) := by
  have hroom : ((tableOf started tasks).sequence == Int64.maxValue) = false := by
    rw [beq_eq_false_iff_ne]
    intro hfull
    have hvalue : (Int64.ofNat tasks.length).toInt = Int64.maxValue.toInt := congrArg _ hfull
    have hmax : Int64.maxValue.toInt = 2 ^ 63 - 1 := rfl
    rw [Int64.toInt_ofNat_of_lt (by omega), hmax] at hvalue
    omega
  have hid : (tableOf started tasks).sequence + 1 = 1 + .ofNat tasks.length := Int64.add_comm _ _
  have hsequence : (1 : Int64) + .ofNat tasks.length = .ofNat (tasks.length + 1) := by
    rw [Int64.ofNat_add, Int64.add_comm]
    rfl
  rw [Table.insert, hroom, hid]
  simp only [tableOf, List.length_append, List.length_singleton, ← hsequence]
  rfl

/-- A file and the table in it. -/
structure Keeps (path : String) (tasks : List Task) (s : Store) (w : World) : Prop where
  table : ∃ started, s = .database ⟨some path, tableOf started tasks⟩ ∧
    w.Tables path (tableOf started tasks).encode.toUTF8

/-- **A table answers like its list of tasks**, also after reopening. -/
theorem serves (path : String) : Serves (reopen path) (Keeps path) where
  clock := by
    rintro tasks s w now ⟨started, hs, htables⟩
    exact ⟨started, hs, ⟨htables.above, htables.holds⟩⟩
  shows := by
    rintro tasks _ w ⟨started, rfl, -⟩ - -
    exact ⟨fun _ => rfl, fun _ => rfl, rfl, rfl⟩
  create := by
    rintro tasks _ w d ⟨started, rfl, htables⟩ - hfew
    obtain ⟨w', hsave, htables'⟩ := save_tables htables
      (d := ⟨some path, tableOf started (tasks ++ [nextTask tasks d w.clock])⟩) rfl
    have hcreate : (⟨some path, tableOf started tasks⟩ : Database).create World.host d w =
        ((.ok (nextTask tasks d w.clock),
          ⟨some path, tableOf started (tasks ++ [nextTask tasks d w.clock])⟩), w') := by
      have hnow : World.host.now w = (w.clock, w) := rfl
      rw [Database.create, bind_apply, hnow]
      simp only [insert_tableOf started d w.clock hfew]
      rw [bind_apply, hsave]
      rfl
    refine ⟨_, w', ?_, ⟨started, rfl, htables'⟩⟩
    rw [Store.create, bind_apply, hcreate]
    rfl
  reopen := by
    rintro tasks _ w ⟨started, rfl, htables⟩ - -
    obtain ⟨w', hopen, htables'⟩ := openAt_tables htables
    rw [migrated_tableOf] at hopen htables'
    refine ⟨_, w', ?_, ⟨started, rfl, htables'⟩⟩
    rw [reopen, bind_apply, hopen]
    rfl

end Database

/-- **The kinds of ledger are interchangeable.** A ledger in memory over an empty directory and a
table over a missing file give equal answers to every sequence of requests with any clock times, as
long as there are ids left. They are the answers of the list of tasks. -/
theorem kinds_agree {w w₁ v v₁ : World} {directory path : String} {j : Journal} {d : Database}
    (hlog : w.Logs directory .empty) (hj : Journal.openAt World.host directory w = (.ok j, w₁))
    (hfile : v.files.get? (v.place path) = none)
    (hd : Database.openAt World.host path v = (.ok d, v₁))
    (requests : List Request) (hfew : creates requests < 2 ^ 63) :
    ((Store.journal j).serve (Journal.reopen directory) requests w₁).1 =
        ((Store.database d).serve (Database.reopen path) requests v₁).1 ∧
      ((Store.database d).serve (Database.reopen path) requests v₁).1 = answers [] requests := by
  have hrequests : ([] : List Task).length + creates requests < 2 ^ 63 := by
    simpa using hfew
  have hempty : w.Logs directory "".toUTF8 := hlog
  rw [Journal.openAt_logs hempty] at hj
  cases hj
  obtain ⟨rfl, htables⟩ := Database.openAt_new hfile hd
  have hjournal := (Journal.serves directory).answers_eq ⟨rfl, hempty⟩ .nil requests hrequests
  have hdatabase := (Database.serves path).answers_eq ⟨v.clock, rfl, htables⟩ .nil requests hrequests
  exact ⟨hjournal.trans hdatabase.symm, hdatabase⟩

/-- Two tasks, the second stored after the clock was set back, and a reopening. The times do not
decrease in either kind of ledger. -/
theorem kinds_agree_on_two_tasks :
    ∃ (w w₁ v v₁ : World) (j : Journal) (d : Database) (requests : List Request) (t u : Task),
      w.Logs "data" .empty ∧ Journal.openAt World.host "data" w = (.ok j, w₁) ∧
      v.files.get? (v.place "data/tasks.db") = none ∧
      Database.openAt World.host "data/tasks.db" v = (.ok d, v₁) ∧ creates requests < 2 ^ 63 ∧
      t.createdAt = 100 ∧ u.createdAt = 100 ∧
      ((Store.journal j).serve (Journal.reopen "data") requests w₁).1 =
        [.created (.ok t), .recent [t], .created (.ok u), .reopened (.ok ()), .found (.ok u),
          .found (.error (.notFound 7)), .count 2] ∧
      ((Store.database d).serve (Database.reopen "data/tasks.db") requests v₁).1 =
        ((Store.journal j).serve (Journal.reopen "data") requests w₁).1 := by
  let first : Task.Draft := {goal := "first", chainAction := "", address := ""}
  let second : Task.Draft := {goal := "second", chainAction := "balance", address := "0xabc"}
  let requests : List Request := [⟨100, .create first⟩, ⟨-50, .recent 5⟩, ⟨40, .create second⟩,
    ⟨40, .reopen⟩, ⟨40, .get 2⟩, ⟨40, .get 7⟩, ⟨40, .count⟩]
  let w := World.keeping none
  have hlog : w.Logs "data" "".toUTF8 := World.keeping_logs none
  have hopen := Journal.openAt_logs hlog
  have hplace : w.place "data/tasks.db" = ["data", "tasks.db"] := by decide
  have hparent : Files.Path.parent? "data/tasks.db" = some "data" := by
    simp [Files.Path.parent?, Files.Path.trimmedEnd]
  have habove : ∀ directory, Files.Path.parent? "data/tasks.db" = some directory →
      directory ≠ "" → w.files.get? (w.place directory) = some .directory := by
    intro directory hd _
    rw [hparent] at hd
    cases hd
    exact hlog.present
  have hbeside : w.files.get? (w.place "data/tasks.db").dropLast = some .directory := by
    rw [hplace]
    rfl
  have hmissing : w.files.read (w.place "data/tasks.db") = .error .missing := by
    rw [hplace]
    rfl
  obtain ⟨v₁, hd⟩ := Database.exists_openAt_new habove hbeside hmissing
  have hfile : w.files.get? (w.place "data/tasks.db") = none := by
    rw [hplace]
    rfl
  have hfew : creates requests < 2 ^ 63 := by decide
  obtain ⟨hsame, hanswers⟩ := kinds_agree hlog hopen hfile hd requests hfew
  have hrecent : (newest [first.stored 1 100]).take 5 = [first.stored 1 100] := by
    simp [newest]
  refine ⟨w, w, w, v₁, _, _, requests, first.stored 1 100, second.stored 2 100, hlog, hopen, hfile,
    hd, hfew, rfl, rfl, ?_, hsame.symm⟩
  rw [hsame, hanswers, ← hrecent]
  rfl

end Ledger

end ChainAgent
