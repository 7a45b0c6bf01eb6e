import ChainAgent.Ledger.Store
import ChainAgent.Proofs.Ledger.Recency

/-! The abstract ledger: a list of tasks.

`Question.answer` is the answer of a list of tasks to a request, and `Question.after` the list after
it. Ids are consecutive from one and times do not decrease (`Counted`). A kind of ledger that
simulates the list in every step (`Serves`) gives the same answers to every sequence of requests
(`Serves.answers_eq`), however it stores the tasks and however often it is closed and reopened. -/
namespace ChainAgent.Ledger

/-- The requests to a ledger, without their time. -/
inductive Question where
  | create (d : Task.Draft)
  | get (id : Int64)
  | recent (limit : Nat)
  | count
  | stats
  /-- Close the ledger and open it again. -/
  | reopen

/-- A request, and the time of the clock. -/
structure Request where
  now : Int64
  question : Question

/-- The answers of a ledger. -/
inductive Answer where
  | created (result : Except Failure Task)
  | found (result : Except Failure Task)
  | recent (tasks : List Task)
  | count (n : Nat)
  | stats (s : Stats)
  | reopened (result : Except Failure Unit)

/-! ### Tasks alone -/

/-- The task that a draft becomes after some tasks. -/
def nextTask (tasks : List Task) (d : Task.Draft) (now : Int64) : Task :=
  d.stored (1 + .ofNat tasks.length) (later now ((latest (tasks.map (·.createdAt))).getD 0))

/-- The task with an id in a list. -/
def lookUp (tasks : List Task) (id : Int64) : Except Failure Task :=
  match tasks.find? (·.id == id) with
  | some t => .ok t
  | none => .error (.notFound id)

namespace Question

/-- Whether a request is a create. -/
def isCreate : Question → Bool
  | .create _ => true
  | _ => false

/-- The answer of a list of tasks. -/
def answer (now : Int64) (tasks : List Task) : Question → Answer
  | .create d => .created (.ok (nextTask tasks d now))
  | .get id => .found (lookUp tasks id)
  | .recent limit => .recent ((newest tasks).take limit)
  | .count => .count tasks.length
  | .stats => .stats (.of tasks)
  | .reopen => .reopened (.ok ())

/-- The list of tasks after a request. -/
def after (now : Int64) (tasks : List Task) : Question → List Task
  | .create d => tasks ++ [nextTask tasks d now]
  | _ => tasks

end Question

/-- The answers of a list of tasks to several requests. -/
def answers (tasks : List Task) : List Request → List Answer
  | [] => []
  | r :: rest =>
    r.question.answer r.now tasks :: answers (r.question.after r.now tasks) rest

/-- The number of creates. -/
def creates (requests : List Request) : Nat := requests.countP (·.question.isCreate)

/-- Tasks with consecutive ids from one, in the order of their times. -/
structure Counted (tasks : List Task) : Prop where
  ids : tasks.map (·.id) = (List.range tasks.length).map fun i => 1 + .ofNat i
  times : tasks.Pairwise (·.createdAt ≤ ·.createdAt)

namespace Counted

variable {tasks : List Task}

theorem nil : Counted [] := ⟨rfl, .nil⟩

theorem concat (h : Counted tasks) {t : Task} (hid : t.id = 1 + .ofNat tasks.length)
    (htime : ∀ u ∈ tasks, u.createdAt ≤ t.createdAt) : Counted (tasks ++ [t]) where
  ids := Journal.ids_concat h.ids hid
  times := by
    refine List.pairwise_append.mpr ⟨h.times, List.pairwise_singleton _ _, fun u hu v hv => ?_⟩
    rw [List.mem_singleton] at hv
    rw [hv]
    exact htime u hu

theorem next (h : Counted tasks) (d : Task.Draft) (now : Int64) :
    Counted (tasks ++ [nextTask tasks d now]) := by
  refine h.concat rfl fun u hu => ?_
  obtain ⟨m, hm, hle⟩ := le_latest (List.mem_map_of_mem (f := (·.createdAt)) hu)
  show u.createdAt ≤ later now _
  rw [hm]
  exact Int64.le_trans hle (le_later_right now m)

theorem after (h : Counted tasks) (now : Int64) (q : Question) : Counted (q.after now tasks) := by
  cases q with
  | create d => exact h.next d now
  | _ => exact h

/-- The ids ascend as long as they do not wrap around. -/
theorem ascending (h : Counted tasks) (hfew : tasks.length < 2 ^ 63) : Journal.Ascending tasks :=
  (Journal.ascending_iff_of_counted h.ids).mpr hfew

/-- No task is older than one before it. -/
theorem steady (h : Counted tasks) (hfew : tasks.length < 2 ^ 63) :
    tasks.Pairwise fun t u => newestFirst u t :=
  (h.times.and (h.ascending hfew)).imp fun hle => newestFirst_of_le hle.1 (Int64.le_of_lt hle.2)

end Counted

/-! ### Ledgers -/

/-- A ledger serves one request; `reopen` opens it again. There is none any more when that fails. -/
def Store.answer (reopen : StateM World (Except Failure Store)) (s : Store) :
    Question → StateM World (Answer × Option Store)
  | .create d => do
    let (result, s) ← s.create World.host d
    return (.created result, some s)
  | .get id => return (.found (s.get id), some s)
  | .recent limit => return (.recent (s.recent limit), some s)
  | .count => return (.count s.count, some s)
  | .stats => return (.stats s.stats, some s)
  | .reopen => do
    match ← reopen with
    | .ok s => return (.reopened (.ok ()), some s)
    | .error f => return (.reopened (.error f), none)

/-- Serves requests with their times, as long as the ledger can be reopened. -/
def Store.serve (reopen : StateM World (Except Failure Store)) (s : Store) :
    List Request → StateM World (List Answer)
  | [] => return []
  | r :: rest => do
    modify fun w => {w with clock := r.now}
    let (answer, next) ← s.answer reopen r.question
    match next with
    | some s => return answer :: (← s.serve reopen rest)
    | none => return [answer]

/-- A ledger answers reads as a list of tasks does. -/
structure Store.Shows (s : Store) (tasks : List Task) : Prop where
  get : ∀ id, s.get id = lookUp tasks id
  recent : ∀ limit, s.recent limit = (newest tasks).take limit
  count : s.count = tasks.length
  stats : s.stats = .of tasks

/-- A kind of ledger simulates a list of tasks. -/
structure Serves (reopen : StateM World (Except Failure Store))
    (keeps : List Task → Store → World → Prop) : Prop where
  /-- The time of the clock does not change what is stored. -/
  clock : ∀ {tasks s w} (now : Int64), keeps tasks s w → keeps tasks s {w with clock := now}
  shows : ∀ {tasks s w}, keeps tasks s w → Counted tasks → tasks.length < 2 ^ 63 → s.Shows tasks
  create : ∀ {tasks s w} (d : Task.Draft), keeps tasks s w → Counted tasks →
    tasks.length + 1 < 2 ^ 63 →
    ∃ s' w', s.create World.host d w = ((.ok (nextTask tasks d w.clock), s'), w') ∧
      keeps (tasks ++ [nextTask tasks d w.clock]) s' w'
  reopen : ∀ {tasks s w}, keeps tasks s w → Counted tasks → tasks.length < 2 ^ 63 →
    ∃ s' w', reopen w = (.ok s', w') ∧ keeps tasks s' w'

/-- Such a ledger answers one request as its list of tasks does. -/
theorem Serves.step {reopen : StateM World (Except Failure Store)}
    {keeps : List Task → Store → World → Prop} (h : Serves reopen keeps) {tasks : List Task}
    {s : Store} {w : World} (now : Int64) (q : Question) (hkeeps : keeps tasks s w)
    (hcounted : Counted tasks) (hfew : (q.after now tasks).length < 2 ^ 63) :
    ∃ s' w', s.answer reopen q {w with clock := now} = ((q.answer now tasks, some s'), w') ∧
      keeps (q.after now tasks) s' w' := by
  have hkept := h.clock now hkeeps
  cases q with
  | create d =>
    obtain ⟨s', w', hcreate, hgrown⟩ :=
      h.create d hkept hcounted (by simpa [Question.after] using hfew)
    refine ⟨s', w', ?_, hgrown⟩
    rw [Store.answer, bind_apply, hcreate]
    rfl
  | get id =>
    refine ⟨s, _, ?_, hkept⟩
    rw [Store.answer, (h.shows hkept hcounted hfew).get]
    rfl
  | recent limit =>
    refine ⟨s, _, ?_, hkept⟩
    rw [Store.answer, (h.shows hkept hcounted hfew).recent]
    rfl
  | count =>
    refine ⟨s, _, ?_, hkept⟩
    rw [Store.answer, (h.shows hkept hcounted hfew).count]
    rfl
  | stats =>
    refine ⟨s, _, ?_, hkept⟩
    rw [Store.answer, (h.shows hkept hcounted hfew).stats]
    rfl
  | reopen =>
    obtain ⟨s', w', hreopen, hagain⟩ := h.reopen hkept hcounted hfew
    refine ⟨s', w', ?_, hagain⟩
    rw [Store.answer, bind_apply, hreopen]
    rfl

theorem length_after (tasks : List Task) (now : Int64) (q : Question) (rest : List Request) :
    (q.after now tasks).length + creates rest = tasks.length + creates (⟨now, q⟩ :: rest) := by
  cases q with
  | create d =>
    simp [creates, Question.after, Question.isCreate]
    omega
  | _ => simp [creates, Question.after, Question.isCreate]

/-- **A ledger that simulates its list of tasks in each request gives the same answers to all of
them.** -/
theorem Serves.answers_eq {reopen : StateM World (Except Failure Store)}
    {keeps : List Task → Store → World → Prop} (h : Serves reopen keeps) {tasks : List Task}
    {s : Store} {w : World} (hkeeps : keeps tasks s w) (hcounted : Counted tasks)
    (requests : List Request) (hfew : tasks.length + creates requests < 2 ^ 63) :
    (s.serve reopen requests w).1 = answers tasks requests := by
  induction requests generalizing tasks s w with
  | nil => rfl
  | cons r rest ih =>
    rw [← length_after] at hfew
    obtain ⟨s', w', hanswer, hkept⟩ := h.step r.now r.question hkeeps hcounted (by omega)
    have hrest := ih hkept (hcounted.after r.now r.question) hfew
    have hset : (modify fun w => {w with clock := r.now} : StateM World PUnit) w =
      ((), {w with clock := r.now}) := rfl
    rw [Store.serve, bind_apply, hset, bind_apply, hanswer]
    exact congrArg (_ :: ·) hrest

end ChainAgent.Ledger
