import ChainAgent.Agent.Failure
import ChainAgent.Text.Redaction

/-! Error responses of the gateway. -/
namespace ChainAgent.Gateway

/-- An error response: its status, a stable code and a message. -/
structure Refusal where
  status : Nat
  code : String
  message : String

/-- The status of a failure of the agent. -/
def failureStatus : Agent.Failure → Nat
  | .invalidInput _ => 400
  | .storage (.notFound _) => 404
  | .storage _ => 500
  | .knowledge _ => 500
  | .reasoning (.timedOut _) => 504
  | .reasoning _ => 502
  | .chain _ => 502
  | .cancelled _ => 503
  | .timedOut _ => 504
  | .settings _ => 500

/-- The error response for a failure of the agent, with its message sanitized. -/
def Refusal.ofFailure (f : Agent.Failure) : Refusal :=
  ⟨failureStatus f, f.code, Text.sanitize f.message⟩

end ChainAgent.Gateway
