/-! Validation errors of a configuration. -/
namespace ChainAgent.Settings

inductive Failure where
  | unloadable (message : String)
  | invalid (message : String)

def Failure.message : Failure → String
  | .unloadable m => "failed to load config: " ++ m
  | .invalid m => "validation failed: " ++ m

end ChainAgent.Settings
