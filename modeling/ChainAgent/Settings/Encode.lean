import ChainAgent.Settings.Basic
import ChainAgent.Toml.Printer

/-! The TOML document of a configuration: all sections with all fields, in one order; an absent
option is left out. -/
namespace ChainAgent.Settings

open Toml (Value Members)

def natValue (n : Nat) : Value := .integer n

/-- An optional member. -/
def optionalMember (name : String) : Option String → Members
  | some s => [(name, .text s)]
  | none => []

def table (ms : Members) : Value := .table .headed ms

def Agent.members (a : Agent) : Members := [
  ("memory_depth", natValue a.memoryDepth),
  ("llm_timeout_secs", natValue a.llmTimeoutSecs),
  ("chain_timeout_secs", natValue a.chainTimeoutSecs),
  ("request_timeout_secs", natValue a.requestTimeoutSecs)]

def OpenAi.members (o : OpenAi) : Members :=
  optionalMember "api_key" o.apiKey ++ [
    ("api_key_env", .text o.apiKeyEnv),
    ("base_url", .text o.baseUrl),
    ("model", .text o.model),
    ("temperature", .real o.temperature),
    ("timeout_secs", natValue o.timeoutSecs)]

def Ollama.members (o : Ollama) : Members := [
  ("base_url", .text o.baseUrl),
  ("model", .text o.model),
  ("temperature", .real o.temperature),
  ("timeout_secs", natValue o.timeoutSecs)]

def Script.members (s : Script) : Members :=
  [("interpreter", .text s.interpreter), ("script_path", .text s.scriptPath)] ++
    optionalMember "working_dir" s.workingDir ++ [("timeout_secs", natValue s.timeoutSecs)]

def Reasoning.members (r : Reasoning) : Members := [
  ("provider", .text r.provider),
  ("openai", table r.openai.members),
  ("ollama", table r.ollama.members),
  ("script", table r.script.members)]

def Knowledge.members (k : Knowledge) : Members := [
  ("source", .text k.source),
  ("max_results", natValue k.maxResults)]

def Storage.members (s : Storage) : Members :=
  [("driver", .text s.driver), ("data_dir", .text s.dataDir)] ++
    optionalMember "sqlite_path" s.sqlitePath ++ [("max_connections", natValue s.maxConnections)]

def Network.members (n : Network) : Members := [
  ("name", .text n.name),
  ("kind", .text n.kind),
  ("rpc_url", .text n.rpcUrl),
  ("description", .text n.description)]

def Chain.members (c : Chain) : Members := [
  ("default_network", .text c.defaultNetwork),
  ("networks", .tables (c.networks.map Network.members))]

def Client.members (c : Client) : Members := [("id", .text c.id), ("secret", .text c.secret)]

def Gateway.members (g : Gateway) : Members := [
  ("port", natValue g.port),
  ("host", .text g.host),
  ("require_auth", .bool g.requireAuth),
  ("token_ttl_secs", natValue g.tokenTtlSecs),
  ("clients", .tables (g.clients.map Client.members))]

def Logging.members (l : Logging) : Members := [("level", .text l.level)]

def members (s : Settings) : Members := [
  ("agent", table s.agent.members),
  ("reasoning", table s.reasoning.members),
  ("knowledge", table s.knowledge.members),
  ("storage", table s.storage.members),
  ("chain", table s.chain.members),
  ("gateway", table s.gateway.members),
  ("logging", table s.logging.members)]

/-- The document of a configuration. -/
def encode (s : Settings) : Option String := Toml.pretty s.members

end ChainAgent.Settings
