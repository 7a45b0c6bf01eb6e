import ChainAgent.Files.Fault

/-! Failures of a ledger. -/
namespace ChainAgent.Ledger

inductive Failure where
  | notFound (id : Int64)
  | io (fault : Files.Fault)
  | codec (message : String)
  | database (message : String)
  | migration (message : String)

def Failure.message : Failure → String
  | .notFound id => "task " ++ toString id.toInt ++ " not found"
  | .io f => "io: " ++ f.message
  | .codec m => "record codec: " ++ m
  | .database m => "database: " ++ m
  | .migration m => "schema migration failed: " ++ m

end ChainAgent.Ledger
