/-! Reports of chain actions. -/
namespace ChainAgent.Chain

/-- The report of an action that succeeded; chain id and block number are of the network's state
right after it, if the snapshot succeeded. -/
structure Outcome where
  observation : String
  chainId : Option String
  blockNumber : Option String
deriving DecidableEq

end ChainAgent.Chain
