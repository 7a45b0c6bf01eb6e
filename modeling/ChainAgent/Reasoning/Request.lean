import ChainAgent.Task.Basic
import ChainAgent.Knowledge.Card
import ChainAgent.Time.Span

/-! Requests to a reasoning backend, its replies and its failures. -/
namespace ChainAgent.Reasoning

/-- A past task in a request. -/
structure PastTask where
  goal : String
  chainAction : String
  reply : String
  observations : String
  createdAt : Int64
deriving DecidableEq

def PastTask.of (t : Task) : PastTask :=
  ⟨t.goal, t.chainAction, t.reply, t.observations, t.createdAt⟩

/-- The request to a backend; past tasks are newest first. -/
structure Request where
  goal : String
  chainAction : String
  address : String
  history : List PastTask
  knowledge : List Knowledge.Card
deriving DecidableEq

structure Reply where
  thought : String
  reply : String
deriving DecidableEq

inductive Failure where
  /-- The HTTP exchange failed. -/
  | unreachable (backend message : String)
  /-- The response has an unsuccessful status. -/
  | status (backend : String) (status : Nat) (body : String)
  | undecodable (backend message : String)
  | emptyReply
  | timedOut (budget : Time.Span)
  | process (message : String)
  | misconfigured (message : String)

def Failure.message : Failure → String
  | .unreachable b m => "backend " ++ b ++ " unreachable: " ++ m
  | .status b s body => "backend " ++ b ++ " returned status " ++ toString s ++ ": " ++ body
  | .undecodable b m => "backend " ++ b ++ " payload could not be decoded: " ++ m
  | .emptyReply => "backend returned an empty reply"
  | .timedOut d => "backend did not answer within " ++ d.text
  | .process m => "script process failed: " ++ m
  | .misconfigured m => "backend misconfigured: " ++ m

end ChainAgent.Reasoning
