import ChainAgent.Gateway.Service
import ChainAgent.Proofs.Ledger.LogFile

/-! Serving of requests.

The gateway first reads its clock and draws random bytes, and that decides how a request is
received. What is not a job is answered at once (`serve_outside`, `serve_answered`); a job may end
in time or not (`serve_working`). -/
namespace ChainAgent.Gateway

open Time (Span)

/-! ### Answers -/

/-- The request id does not affect the rest of a response. -/
theorem completed_ok (route : Route) (requestId : String) (a : Answer) :
    (completed route requestId (.ok a)).status = a.status ∧
      (completed route requestId (.ok a)).body = a.body := by
  cases route <;> exact ⟨rfl, rfl⟩

theorem completed_error (route : Route) (requestId : String) (f : Refusal) :
    (completed route requestId (.error f)).status = f.status ∧
      (completed route requestId (.error f)).body = (Answer.refusal f).body := by
  cases route <;> exact ⟨rfl, rfl⟩

theorem fitted_of_ne {r : Request} (h : r.method ≠ "HEAD") (a : Answer) : fitted r a = a := by
  rw [fitted, if_neg (by simpa using h)]

/-! ### Serving -/

variable {σ : Type} (g : Gateway (StateM σ)) (s : State) (r : Request) (w : σ)

/-- The instant at which a gateway begins with a request. -/
def started : Span := (g.uptime w).1

/-- The random bytes for a request. -/
def drawn : Fresh := (g.fresh (g.uptime w).2).1

/-- The state after the clock has been read and random bytes have been drawn. -/
def begun : σ := (g.fresh (g.uptime w).2).2

/-- The reception of a request. -/
def received : Reception × State :=
  receive g.agent.ledger.name g.requireAuth (g.started w) (g.drawn w).token r s

/-- The response of a route, and the state when it is counted. -/
def answering (route : Route) (result : Except Refusal Answer) (ended : Span) (next : State)
    (left : σ) : (Option (Answer × Span) × State) × σ :=
  let a := completed route (g.drawn w).requestId result
  ((some (fitted r a, ended),
    counted next route a ⟨(g.uptime left).1.nanos - (g.started w).nanos⟩), (g.uptime left).2)

variable {g s r w} {next : State} {route : Route}

theorem serve_outside {a : Answer} (h : g.received s r w = (.outside a, next)) :
    (g.serve s r).run w = ((some (fitted r a, ⟨0⟩), next), g.begun w) := by
  unfold received started drawn at h
  rw [serve, StateT.run, bind_apply, bind_apply, h]
  rfl

theorem serve_answered {result : Except Refusal Answer}
    (h : g.received s r w = (.answered route result, next)) :
    (g.serve s r).run w = g.answering r w route result ⟨0⟩ next (g.begun w) := by
  unfold received started drawn at h
  rw [serve, StateT.run, bind_apply, bind_apply, h]
  rfl

/-- A job whose deadline overflows is not begun, and one that never ends times out. -/
theorem serve_working {job : Job} (h : g.received s r w = (.working route job, next)) :
    (g.serve s r).run w =
      if job.isRun && (deadlineOf (g.started w) g.requestTimeout).isNone then
        ((none, next), g.begun w)
      else
        match (g.perform job).run (g.begun w) with
        | (none, left) => ((some (fitted r .late, patience g.requestTimeout), next), left)
        | (some (result, ended), left) => g.answering r w route result ended next left := by
  unfold received started drawn at h
  rw [serve, StateT.run, bind_apply, bind_apply, h]
  by_cases hnever : (job.isRun && (deadlineOf (g.started w) g.requestTimeout).isNone) = true
  · rw [if_pos hnever]
    exact congrFun (if_pos hnever) _
  · rw [if_neg hnever]
    refine (congrFun (if_neg hnever) _).trans ?_
    rw [bind_apply]
    unfold begun StateT.run
    rcases g.perform job (g.fresh (g.uptime w).2).2 with ⟨_ | ⟨result, ended⟩, left⟩
    · rfl
    · rfl

end ChainAgent.Gateway
