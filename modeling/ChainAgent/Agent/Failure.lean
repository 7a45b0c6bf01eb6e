import ChainAgent.Ledger.Failure
import ChainAgent.Knowledge.Card
import ChainAgent.Reasoning.Request
import ChainAgent.Chain.Failure
import ChainAgent.Settings.Failure

/-! Failures of a run of the agent. -/
namespace ChainAgent.Agent

/-- The steps of a run at which it can be interrupted. -/
inductive Step where
  | history
  | knowledge
  | reasoning
  | chain
  | persist
deriving DecidableEq

def Step.name : Step → String
  | .history => "history"
  | .knowledge => "knowledge"
  | .reasoning => "reasoning"
  | .chain => "chain"
  | .persist => "persist"

inductive Failure where
  | invalidInput (message : String)
  | storage (f : Ledger.Failure)
  | knowledge (f : Knowledge.Failure)
  | reasoning (f : Reasoning.Failure)
  | chain (f : Chain.Failure)
  | cancelled (step : Step)
  | timedOut (step : Step)
  | settings (f : Settings.Failure)

namespace Failure

def message : Failure → String
  | .invalidInput m => "invalid input: " ++ m
  | .storage f => "storage: " ++ f.message
  | .knowledge f => "knowledge lookup: " ++ f.message
  | .reasoning f => "reasoning: " ++ f.message
  | .chain f => "chain execution: " ++ f.message
  | .cancelled s => "request cancelled during " ++ s.name
  | .timedOut s => "request deadline exceeded during " ++ s.name
  | .settings f => "config: " ++ f.message

/-- The stable code of the kind of failure. -/
def code : Failure → String
  | .invalidInput _ => "invalid_input"
  | .storage (.notFound _) => "not_found"
  | .storage _ => "storage_error"
  | .knowledge _ => "knowledge_lookup_error"
  | .reasoning _ => "reasoning_error"
  | .chain _ => "chain_execution_error"
  | .cancelled _ => "cancelled"
  | .timedOut _ => "timeout"
  | .settings _ => "config_error"

/-- Whether the failure is a timeout, of the whole run or of the backend. -/
def isTimeout : Failure → Bool
  | .timedOut _ => true
  | .reasoning (.timedOut _) => true
  | _ => false

end Failure

end ChainAgent.Agent
