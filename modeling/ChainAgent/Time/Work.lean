import ChainAgent.Time.Span

/-! Work that takes time.

A `Course` is a computation on a monotonic clock. It is abandoned when it waits for work that never
ends, or beyond the instant at which its caller drops it; its effects until then remain. -/
namespace ChainAgent.Time

/-- The result of a piece of work and its duration; none if it never ends. -/
structure Work (α : Type) where
  takes : Option Span
  yields : α

namespace Work

/-- Work that takes no time. -/
def done {α : Type} (a : α) : Work α := ⟨some ⟨0⟩, a⟩

/-- Work under a timeout: its result, or `late` when the timeout passes first. Work that takes
exactly its timeout is in time. -/
def within {α : Type} (budget : Span) (late : α) (w : Work α) : Work α :=
  match w.takes with
  | some d => if d.nanos ≤ budget.nanos then w else ⟨some budget, late⟩
  | none => ⟨some budget, late⟩

def map {α β : Type} (f : α → β) (w : Work α) : Work β := ⟨w.takes, f w.yields⟩

end Work

/-- A computation on the clock; none when it is abandoned. -/
abbrev Course (m : Type → Type) := StateT Span (OptionT m)

namespace Course

variable {m : Type → Type} [Monad m]

/-- The current instant. -/
def now : Course m Span := get

/-- Advances the clock to a later instant, if the caller has not dropped the computation by then. -/
def advance (abandoned : Option Span) (instant : Span) : Course m Unit := do
  if abandoned.any fun limit => limit.nanos < instant.nanos then failure else set instant

/-- Waits for work, if the caller does not drop the computation before its end. -/
def await {α : Type} (abandoned : Option Span) (work : m (Work α)) : Course m α := do
  let start ← now
  let w ← (work : OptionT m (Work α))
  match w.takes with
  | none => failure
  | some d =>
    advance abandoned (start + d)
    return w.yields

/-- Runs a course from an instant on: its result and the instant of its end. -/
def result {α : Type} (start : Span) (c : Course m α) : m (Option (α × Span)) := (c start).run

end Course

end ChainAgent.Time
