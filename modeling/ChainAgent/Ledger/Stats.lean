import ChainAgent.Task.Basic

/-! Statistics of a ledger. -/
namespace ChainAgent.Ledger

/-- The number of tasks, and their earliest and latest creation times. -/
structure Stats where
  total : Nat
  oldest : Option Int64
  newest : Option Int64
deriving DecidableEq

/-- The least of some times. -/
def earliest (times : List Int64) : Option Int64 :=
  times.foldl (fun best t => some (match best with
    | some b => if t < b then t else b
    | none => t)) none

/-- The greatest of some times. -/
def latest (times : List Int64) : Option Int64 :=
  times.foldl (fun best t => some (match best with
    | some b => if b < t then t else b
    | none => t)) none

def Stats.of (tasks : List Task) : Stats :=
  let times := tasks.map (·.createdAt)
  ⟨tasks.length, earliest times, latest times⟩

/-- The order of recency: by time, and at equal times by id. -/
def newestFirst (a b : Task) : Bool :=
  b.createdAt < a.createdAt || (a.createdAt == b.createdAt && b.id ≤ a.id)

/-- The greater of two times. -/
def later (a b : Int64) : Int64 := if a < b then b else a

end ChainAgent.Ledger
