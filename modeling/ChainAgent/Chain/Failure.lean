import ChainAgent.Time.Span

/-! Failures of chain actions. -/
namespace ChainAgent.Chain

inductive Failure where
  | unsupportedAction (action : String)
  | invalidAddress (address : String)
  /-- The peer answered with an error or with an unsuccessful status. -/
  | rpc (method message : String)
  /-- The HTTP exchange failed. -/
  | transport (message : String)
  | undecodable (method message : String)
  | notConfigured
  | timedOut (budget : Time.Span)

def Failure.message : Failure → String
  | .unsupportedAction a => "unsupported chain action '" ++ a ++ "'"
  | .invalidAddress a => "invalid address '" ++ a ++ "'"
  | .rpc method m => "rpc " ++ method ++ " failed: " ++ m
  | .transport m => "rpc transport: " ++ m
  | .undecodable method m => "rpc " ++ method ++ " returned an undecodable result: " ++ m
  | .notConfigured => "no chain network configured"
  | .timedOut d => "chain action timed out after " ++ d.text

end ChainAgent.Chain
