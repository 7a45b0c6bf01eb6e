import ChainAgent.Settings.Basic
import ChainAgent.Settings.Failure
import ChainAgent.Decimal.Notation
import ChainAgent.Url.Address

/-! Validation of a configuration.

The first rule that it breaks is the error. -/
namespace ChainAgent.Settings

def providers : List String := ["openai", "ollama", "script"]

def drivers : List String := ["memory", "sqlite"]

/-- The supported values in a message. -/
def supported (words : List String) : String := "Supported: " ++ ", ".intercalate words

/-- A check: nothing, or the validation error. -/
abbrev Check := Except Failure Unit

def refuse (message : String) : Check := .error (.invalid message)

def checkTemperature (x : Float) : Check :=
  if 0 ≤ x && x ≤ 2 then .ok ()
  else refuse ("temperature " ++ Decimal.bare.render x ++ " outside 0.0..=2.0")

/-- A field with an http or https URL. -/
def checkUrl (field raw : String) : Check :=
  match Url.parse raw with
  | .error p => refuse (field ++ ": invalid URL '" ++ raw ++ "': " ++ p.message)
  | .ok (scheme, _) =>
    if scheme == "http" || scheme == "https" then .ok ()
    else refuse (field ++ ": unsupported scheme '" ++ scheme ++ "'")

def checkNetwork (n : Network) : Check := do
  if Text.saysNothing n.name then refuse "chain network with empty name"
  if n.kind != "evm" then
    refuse ("chain network '" ++ n.name ++ "' has unsupported kind '" ++ n.kind ++ "'. " ++
      supported ["evm"])
  checkUrl ("chain.networks." ++ n.name) n.rpcUrl

/-- The default network must be one of the networks. -/
def checkDefaultNetwork (c : Chain) : Check :=
  let name := Text.trim c.defaultNetwork
  if name.isEmpty || c.networks.any (·.name == name) then .ok ()
  else refuse ("default chain network '" ++ name ++ "' is not configured")

def validate (s : Settings) : Check := do
  let provider := s.reasoning.provider
  if !providers.contains provider then
    refuse ("unknown reasoning provider '" ++ provider ++ "'. " ++ supported providers)
  if !drivers.contains s.storage.driver then
    refuse ("unknown storage driver '" ++ s.storage.driver ++ "'. " ++ supported drivers)
  checkTemperature s.reasoning.openai.temperature
  checkTemperature s.reasoning.ollama.temperature
  checkUrl "reasoning.openai.base_url" s.reasoning.openai.baseUrl
  checkUrl "reasoning.ollama.base_url" s.reasoning.ollama.baseUrl
  s.chain.networks.forM checkNetwork
  checkDefaultNetwork s.chain

end ChainAgent.Settings
