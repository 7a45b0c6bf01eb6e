import ChainAgent.Ledger.Journal

/-! Ids in a build with overflow checks.

The next id of a journal is one more than its last. In a release build this sum wraps around at the
greatest id. A build with overflow checks panics where the sum is computed: at the end of opening a
log with the greatest id, and after the append of the task that gets it. Up to there the two builds
do the same. -/
namespace ChainAgent.Ledger

/-- Whether the next id has wrapped around. It is one more than an id, or one. -/
def Journal.hasWrapped (j : Journal) : Bool := j.nextId == Int64.minValue

variable {m : Type → Type} [Monad m]

/-- An operation in a build with overflow checks; none where it panics. -/
def checked {α : Type} (hasWrapped : α → Bool) (operation : m α) : OptionT m α := do
  let a ← operation
  if hasWrapped a then failure else return a

/-- Opens the journal of a directory in a build with overflow checks. -/
def Journal.openChecked (h : Host m) (directory : String) : OptionT m (Except Failure Journal) :=
  checked (fun opened => opened.toOption.any hasWrapped) (openAt h directory)

/-- Stores a draft in a build with overflow checks. -/
def Journal.createChecked (h : Host m) (j : Journal) (d : Task.Draft) :
    OptionT m (Except Failure Task × Journal) :=
  checked (fun stored => stored.2.hasWrapped) (j.create h d)

end ChainAgent.Ledger
