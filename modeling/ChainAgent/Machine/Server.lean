import ChainAgent.Agent.Wiring
import ChainAgent.Gateway.Service
import ChainAgent.Gateway.Wire
import ChainAgent.Machine.System

/-! The gateway at its port.

Connections are accepted one after the other; each brings one request and gets one response. -/
namespace ChainAgent.Machine

open Std.Async
open Agent (Session Wiring)

/-- Random bytes of the machine. -/
def draw : IO Gateway.Fresh := do
  let id ← IO.getRandomBytes 16
  let token ← IO.getRandomBytes 32
  return ⟨Gateway.requestIdOf id.toList, Gateway.tokenOf token.toList⟩

/-- The gateway of a configuration and its agent. -/
def gateway (s : Settings) (w : Wiring IO) : Gateway (StateT Session IO) where
  agent := w.agent
  requireAuth := s.gateway.requireAuth
  requestTimeout := s.agent.requestTimeout
  uptime := do return ⟨← IO.monoNanosNow⟩
  fresh := draw

/-- The log line when the gateway begins to listen. -/
def banner (s : Settings) (host : String) (port : Nat) : String :=
  "◆ chainpilot gateway listening on http://" ++ host ++ ":" ++ toString port ++ "\n" ++
  "  GET  /health\n" ++
  "  POST /api/v1/auth/token\n" ++
  "  POST /api/v1/tasks\n" ++
  "  GET  /api/v1/tasks?id=<id>\n" ++
  "  GET  /api/v1/tasks/stats\n" ++
  "  GET  /metrics\n" ++
  (if s.gateway.requireAuth then "" else "  ! bearer auth disabled\n") ++
  "  Press Ctrl+C to stop\n\n"

/-- Answers the request of one connection. It is false where the program panics. -/
def answer (g : Gateway (StateT Session IO)) (c : TCP.Socket.Client) :
    StateT (Gateway.State × Session) IO Bool := do
  let request ← (receiveAll c fun _ bytes => Gateway.Request.read bytes).block
  match request with
  | none => return true
  | some r =>
    let (state, session) ← get
    let ((result, state), session) ← (g.serve state r).run session
    set (state, session)
    match result with
    | some (a, _) =>
      (c.send (Http.Wire.write a.toMessage)).block
      return true
    | none => return false

/-- The exit status of a program that panicked. -/
def aborted : UInt32 := 134

/-- Serves until the program is stopped or panics. -/
def serve (listener : Listener) (s : Settings) (host : String) (w : Wiring IO) : IO UInt32 := do
  match ← listener.get with
  | none => return 0
  | some server =>
    IO.print (banner s host (← server.getSockName).port.toNat)
    (← IO.getStdout).flush
    let g := gateway s w
    let mut kept : Gateway.State × Session := (.initial s.gateway, w.session)
    repeat
      let c ← server.accept.block
      try
        let (goesOn, next) ← (answer g c).run kept
        if !goesOn then return aborted
        kept := next
        c.shutdown.block
      catch _ =>
        continue
    return 0

end ChainAgent.Machine
