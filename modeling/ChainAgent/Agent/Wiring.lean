import ChainAgent.Agent.Run
import ChainAgent.Chain.Registry
import ChainAgent.Ledger.Opening
import ChainAgent.Reasoning.Backend

/-! The agent of a configuration on a machine.

The machine's own time is not measured: every piece of work is done at once. -/
namespace ChainAgent.Agent

open Time (Work)

/-- The state of a wired agent: its ledger, and the number of calls that its network has had. -/
structure Session where
  store : Ledger.Store
  nextCall : UInt64

/-- The parts of a wired agent. -/
structure Wiring (m : Type → Type) where
  session : Session
  agent : Agent (StateT Session m)

/-- Why an agent cannot be built. -/
inductive WiringFailure where
  | ledger (f : Ledger.WiringFailure)
  | backend (f : Reasoning.WiringFailure)
  | knowledge (f : Knowledge.Failure)

def WiringFailure.message : WiringFailure → String
  | .ledger f => f.message
  | .backend f => f.message
  | .knowledge f => f.message

variable {m : Type → Type} [Monad m]

/-- The ledger of the session. -/
def Session.access (h : Host m) (name : String) : Ledger.Access (StateT Session m) where
  name := name
  recent := fun limit => do return .done (.ok ((← get).store.recent limit))
  get := fun id => do return .done ((← get).store.get id)
  stats := do return .done (.ok (← get).store.stats)
  prepare := return .done (.ok ())
  record := fun d => do
    let s ← get
    let (result, store) ← (s.store.create h d : m (Except Ledger.Failure Task × Ledger.Store))
    set {s with store := store}
    return result

/-- A knowledge binding that does not touch the session. -/
def lifted : Knowledge.Binding m → Knowledge.Binding (StateT Session m)
  | .absent => .absent
  | .present s => .present ⟨s.name, s.maxResults, fun goal action => s.lookup goal action⟩

/-- An agent out of its parts. -/
def assemble (h : Host m) (s : Settings) (store : Ledger.Store) (backend : Reasoning.Backend)
    (knowledge : Knowledge.Binding m) : Wiring m where
  session := ⟨store, 1⟩
  agent :=
    { ledger := Session.access h store.name
      knowledge := lifted knowledge
      generate := fun r => do
        let result ← (backend.generate h r : m (Except Reasoning.Failure Reasoning.Reply))
        return .done result
      reasoningTimeout := backend.timeout
      execute := fun action address => do
        let session ← get
        let executor := (Chain.Registry.ofSettings s.chain).defaultExecutor
        let (result, next) ←
          ((executor.execute h.toTransport action address).run session.nextCall :
            m (Except Chain.Failure Chain.Outcome × UInt64))
        set {session with nextCall := next}
        return .done result
      options := .ofSettings s.agent }

/-- The agent of a configuration: its ledger is opened first, then its backend and its knowledge
source are created. -/
def wire (h : Host m) (s : Settings) : m (Except WiringFailure (Wiring m)) := do
  match ← Ledger.create h s with
  | .error f => return .error (.ledger f)
  | .ok store =>
    match ← Reasoning.createBackend h s with
    | .error f => return .error (.backend f)
    | .ok backend =>
      match ← Knowledge.create h s with
      | .error f => return .error (.knowledge f)
      | .ok knowledge => return .ok (assemble h s store backend knowledge)

end ChainAgent.Agent
