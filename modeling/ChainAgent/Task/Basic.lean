import ChainAgent.Chain.Outcome

/-! Tasks: the records of the agent's runs.

A `Draft` is a task that the agent puts together; the ledger that stores it adds its id and its
time. An absent text is empty. -/
namespace ChainAgent

/-- A stored task. Times are seconds since the epoch. -/
structure Task where
  id : Int64
  goal : String
  chainAction : String
  address : String
  thought : String
  reply : String
  chainId : String
  blockNumber : String
  observations : String
  createdAt : Int64
  updatedAt : Int64
deriving DecidableEq, Inhabited

/-- Whether the run had a chain action. -/
def Task.chainRequested (t : Task) : Bool := !t.chainAction.isEmpty

namespace Task

/-- A task that is not stored yet. -/
structure Draft where
  goal : String
  chainAction : String
  address : String
  thought : String := ""
  reply : String := ""
  chainId : String := ""
  blockNumber : String := ""
  observations : String := ""
deriving DecidableEq, Inhabited

namespace Draft

def withReasoning (d : Draft) (thought reply : String) : Draft :=
  {d with thought := thought, reply := reply}

/-- The draft of a run whose chain action succeeded. -/
def withOutcome (d : Draft) (o : Chain.Outcome) : Draft :=
  {d with
    observations := o.observation
    chainId := o.chainId.getD ""
    blockNumber := o.blockNumber.getD ""}

/-- The draft of a run whose chain action failed: the failure is the observation. -/
def withFailure (d : Draft) (message : String) : Draft :=
  {d with observations := message, chainId := "", blockNumber := ""}

/-- The stored task: created and updated at one time. -/
def stored (d : Draft) (id createdAt : Int64) : Task where
  id := id
  goal := d.goal
  chainAction := d.chainAction
  address := d.address
  thought := d.thought
  reply := d.reply
  chainId := d.chainId
  blockNumber := d.blockNumber
  observations := d.observations
  createdAt := createdAt
  updatedAt := createdAt

end Draft

end Task

end ChainAgent
