import ChainAgent.Settings.Basic

/-! Environment overrides of a configuration.

Of two variables for one field the first that is set decides alone, even if its value is invalid. -/
namespace ChainAgent.Settings

/-- Environment variables with their values. -/
abbrev Variables := List (String × String)

def Variables.get? (vs : Variables) (name : String) : Option String :=
  (vs.find? (·.1 == name)).map (·.2)

/-- All variables that override a field. -/
def variableNames : List String := [
  "CHAINPILOT_REASONING_PROVIDER", "CHAINPILOT_OPENAI_API_KEY", "OPENAI_API_KEY",
  "CHAINPILOT_STORAGE_DRIVER", "CHAINPILOT_DATA_DIR", "CHAINPILOT_MEMORY_DEPTH",
  "CHAINPILOT_GATEWAY_PORT", "PORT", "CHAINPILOT_GATEWAY_HOST", "HOST", "CHAINPILOT_LOG_LEVEL"]

/-- The value of a variable unless it is empty. -/
def nonempty? (value : Option String) : Option String := value.filter (!·.isEmpty)

/-- The configuration with the environment applied. -/
def overridden (s : Settings) (vs : Variables) : Settings :=
  let one (name : String) : Option String := vs.get? name
  let either (name general : String) : Option String := one name <|> one general
  let number (bound : Nat) (value : Option String) : Option Nat := value >>= Decimal.natural? bound
  let key := s.reasoning.openai.apiKey <|> nonempty? (either "CHAINPILOT_OPENAI_API_KEY" "OPENAI_API_KEY")
  {s with
    reasoning := {s.reasoning with
      provider := (nonempty? (one "CHAINPILOT_REASONING_PROVIDER")).getD s.reasoning.provider
      openai := {s.reasoning.openai with apiKey := key}}
    storage := {s.storage with
      driver := (nonempty? (one "CHAINPILOT_STORAGE_DRIVER")).getD s.storage.driver
      dataDir := (nonempty? (one "CHAINPILOT_DATA_DIR")).getD s.storage.dataDir}
    agent := {s.agent with
      memoryDepth := (number UInt64.size (one "CHAINPILOT_MEMORY_DEPTH")).getD s.agent.memoryDepth}
    gateway := {s.gateway with
      port := (number UInt16.size (either "CHAINPILOT_GATEWAY_PORT" "PORT")).getD s.gateway.port
      host := (nonempty? (either "CHAINPILOT_GATEWAY_HOST" "HOST")).getD s.gateway.host}
    logging := {s.logging with
      level := (nonempty? (one "CHAINPILOT_LOG_LEVEL")).getD s.logging.level}}

end ChainAgent.Settings
