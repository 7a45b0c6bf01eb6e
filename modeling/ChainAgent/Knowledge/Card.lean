/-! Knowledge cards, and failures of a lookup. -/
namespace ChainAgent.Knowledge

/-- A titled piece of reference text. -/
structure Card where
  title : String
  content : String
deriving DecidableEq

inductive Failure where
  | unreadable (path message : String)
  | undecodable (path message : String)

def Failure.message : Failure → String
  | .unreadable path m => "failed to read catalogue " ++ path ++ ": " ++ m
  | .undecodable path m => "failed to decode catalogue " ++ path ++ ": " ++ m

end ChainAgent.Knowledge
