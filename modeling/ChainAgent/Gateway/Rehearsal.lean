import ChainAgent.Agent.Rehearsal
import ChainAgent.Gateway.Service

/-! Gateways with scripted agents.

The clock stands still unless it is advanced, and the random source is a counter. -/
namespace ChainAgent.Gateway.Rehearsal

open Agent.Rehearsal (Stage Cast)
open Time (Span)

/-- The next random draw. -/
def draw : StateM Stage Fresh := do
  let stage ← get
  set {stage with draws := stage.draws + 1}
  return ⟨requestIdOf (Digest.bytesOf 16 stage.draws), tokenOf (Digest.bytesOf 32 stage.draws)⟩

/-- The gateway with a scripted agent. -/
def gateway (c : Cast) (requireAuth : Bool) (requestTimeout : Span) : Gateway (StateM Stage) where
  agent := Agent.Rehearsal.agent c
  requireAuth := requireAuth
  requestTimeout := requestTimeout
  uptime := do return (← get).uptime
  fresh := draw

/-- Advances the clock. -/
def advance (d : Span) : StateM Stage Unit := modify fun stage => {stage with uptime := stage.uptime + d}

end ChainAgent.Gateway.Rehearsal
