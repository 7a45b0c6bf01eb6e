import ChainAgent.Task.Record
import ChainAgent.Text.Blank
import ChainAgent.Text.Lines
import ChainAgent.Ledger.Failure
import ChainAgent.Ledger.Stats
import ChainAgent.Files.Path
import ChainAgent.Host.Basic

/-! The ledger backed by an append-only log.

All tasks are in memory, in the order of their ids, and a new one is appended to the log as one line
before it counts. Opening a log replays its lines; a line that is not a record is skipped. Ids are
64-bit integers and wrap around. -/
namespace ChainAgent.Ledger

/-- The log, if there is one, and the tasks of the ledger. -/
structure Journal where
  log : Option String
  /-- Ascending by id. -/
  tasks : List Task
  nextId : Int64
  lastCreatedAt : Int64

namespace Journal

/-- The file name of the log. -/
def logName : String := "tasks.log"

/-- The first task of every run of tasks with one id. -/
def firstOfEach : List Task → List Task
  | [] => []
  | [t] => [t]
  | t :: u :: rest =>
    if t.id == u.id then firstOfEach (t :: rest) else t :: firstOfEach (u :: rest)
  termination_by ts => ts.length

/-- A ledger of tasks in any order; of several with one id the first is kept. -/
def ofTasks (log : Option String) (found : List Task) : Journal :=
  let tasks := firstOfEach (found.mergeSort fun a b => a.id ≤ b.id)
  { log := log
    tasks := tasks
    nextId := match tasks.getLast? with
      | some t => t.id + 1
      | none => 1
    lastCreatedAt := (latest (tasks.map (·.createdAt))).getD 0 }

/-- The record of a line, if it is one. -/
def ofLine? (line : String) : Option Task :=
  if Text.saysNothing line then none else Task.ofText? (Text.trim line)

/-- The tasks that a log records, in its order. -/
def replay (contents : String) : List Task := (Text.lines contents).filterMap ofLine?

/-- The task that a draft becomes. Creation times never decrease. -/
def next (j : Journal) (d : Task.Draft) (now : Int64) : Task :=
  d.stored j.nextId (later now j.lastCreatedAt)

/-- The ledger with one more task. -/
def accept (j : Journal) (t : Task) : Journal :=
  {j with tasks := j.tasks ++ [t], nextId := j.nextId + 1, lastCreatedAt := t.createdAt}

/-- At most `limit` tasks from the end, newest first. -/
def recent (j : Journal) (limit : Nat) : List Task :=
  (j.tasks.reverse.take limit).mergeSort newestFirst

/-- Binary search from `base` on, until one place is left that may have the id; `fuel` bounds the
steps. -/
def searchFrom (tasks : Array Task) (id : Int64) : Nat → Nat → Nat → Nat
  | 0, base, _ => base
  | fuel + 1, base, size =>
    if size ≤ 1 then base
    else
      let half := size / 2
      match tasks[base + half]? with
      | some t => searchFrom tasks id fuel (if id < t.id then base else base + half) (size - half)
      | none => base

/-- The task with an id, found by binary search. -/
def get (j : Journal) (id : Int64) : Except Failure Task :=
  let tasks := j.tasks.toArray
  match tasks[searchFrom tasks id tasks.size 0 tasks.size]? with
  | some t => if t.id == id then .ok t else .error (.notFound id)
  | none => .error (.notFound id)

def count (j : Journal) : Nat := j.tasks.length

def stats (j : Journal) : Stats := .of j.tasks

/-- A ledger without a log. -/
def ephemeral : Journal := ofTasks none []

variable {m : Type → Type} [Monad m]

/-- Opens the ledger of a directory, or creates one. -/
def openAt (h : Host m) (directory : String) : m (Except Failure Journal) := do
  match ← h.createDirs directory with
  | .error f => return .error (.io f)
  | .ok _ =>
    let log := Files.Path.join directory logName
    match ← h.readText log with
    | .ok contents => return .ok (ofTasks (some log) (replay contents))
    | .error .missing => return .ok (ofTasks (some log) [])
    | .error f => return .error (.io f)

/-- Appends the line of a task to the log. -/
def appendLine (h : Host m) (j : Journal) (t : Task) : m (Except Files.Fault Unit) :=
  match j.log with
  | none => return .ok ()
  | some log => h.appendFile log (t.line ++ "\n").toUTF8

/-- Stores a draft: its line is appended before the task counts. -/
def create (h : Host m) (j : Journal) (d : Task.Draft) : m (Except Failure Task × Journal) := do
  let task := j.next d (← h.now)
  match ← j.appendLine h task with
  | .error f => return (.error (.io f), j)
  | .ok _ => return (.ok task, j.accept task)

end Journal

end ChainAgent.Ledger
