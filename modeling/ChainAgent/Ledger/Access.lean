import ChainAgent.Ledger.Store
import ChainAgent.Time.Work

/-! The interface of a ledger to the agent and the gateway.

Operations take time and may fail. The delay of a write is in `prepare`; the write itself is atomic
and happens at one instant (`record`). -/
namespace ChainAgent.Ledger

open Time (Work)

structure Access (m : Type → Type) where
  name : String
  /-- Past tasks, newest first; `limit` is the number requested. -/
  recent : (limit : Nat) → m (Work (Except Failure (List Task)))
  get : Int64 → m (Work (Except Failure Task))
  stats : m (Work (Except Failure Stats))
  prepare : m (Work (Except Failure Unit))
  record : Task.Draft → m (Except Failure Task)

end ChainAgent.Ledger
