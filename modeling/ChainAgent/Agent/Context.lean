import ChainAgent.Agent.Failure
import ChainAgent.Time.Work

/-! Cancellation and deadline of a run.

A run is cancelled at one instant and has its deadline at another. Where both fall together the
cancellation wins, and either wins over work that ends at the same instant. Once both have passed, a
check reports the cancellation, whichever came first. -/
namespace ChainAgent.Agent

open Time (Span Work Course)

inductive Interruption where
  | cancelled
  | deadlineExceeded
deriving DecidableEq

/-- The failure of a run that is interrupted at a step. -/
def Interruption.at (step : Step) : Interruption → Failure
  | .cancelled => .cancelled step
  | .deadlineExceeded => .timedOut step

/-- The instants of a run on a monotonic clock, as nanoseconds. A run may begin after it has been
cancelled, and after its deadline. -/
structure Context where
  start : Span := ⟨0⟩
  cancelAt : Option Span := none
  deadline : Option Span := none
  /-- The instant at which the caller drops the run, as an outer timeout does. -/
  abandonAt : Option Span := none

namespace Context

def isCancelled (c : Context) (now : Span) : Bool := c.cancelAt.any (·.nanos ≤ now.nanos)

def isExpired (c : Context) (now : Span) : Bool := c.deadline.any (·.nanos ≤ now.nanos)

/-- The time left until the deadline. -/
def remaining (c : Context) (now : Span) : Option Span :=
  c.deadline.map fun d => ⟨d.nanos - now.nanos⟩

/-- The interruption to report at an instant, if there is one: cancellation is tested first. -/
def check (c : Context) (now : Span) : Option Interruption :=
  if c.isCancelled now then some .cancelled
  else if c.isExpired now then some .deadlineExceeded
  else none

/-- The first interruption and its instant. -/
def first (c : Context) : Option (Span × Interruption) :=
  match c.cancelAt, c.deadline with
  | some a, some b =>
    if a.nanos ≤ b.nanos then some (a, .cancelled) else some (b, .deadlineExceeded)
  | some a, none => some (a, .cancelled)
  | none, some b => some (b, .deadlineExceeded)
  | none, none => none

/-- The interruption that comes no later than the end of some work. -/
def interrupting (c : Context) (ended : Option Span) : Option (Span × Interruption) :=
  c.first.filter fun (instant, _) => !ended.any fun e => e.nanos < instant.nanos

variable {m : Type → Type} [Monad m]

/-- Work that can be interrupted. It is not begun if the run is already cancelled or past its
deadline, and its result is lost when it is interrupted. -/
def guarding {α : Type} (c : Context) (work : m (Work α)) : Course m (Except Interruption α) := do
  let start ← Course.now
  match c.check start with
  | some i => return .error i
  | none =>
    let w ← (work : OptionT m (Work α))
    let ended := w.takes.map (start + ·)
    match c.interrupting ended, ended with
    | some (instant, i), _ =>
      Course.advance c.abandonAt instant
      return .error i
    | none, some e =>
      Course.advance c.abandonAt e
      return .ok w.yields
    | none, none => failure

end Context

end ChainAgent.Agent
