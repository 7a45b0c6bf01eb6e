import ChainAgent.Settings.Basic
import ChainAgent.Toml.Reader

/-! The configuration of a TOML document.

A section is a table of its fields, or an array of them in order. Missing fields have their
defaults, unknown members are ignored, and a field of the wrong type is an error. -/
namespace ChainAgent.Settings

open Toml (Value)

/-- A decoder of a value. -/
abbrev Decoder (α : Type) := Value → Option α

def text : Decoder String
  | .text s => some s
  | _ => none

def truth : Decoder Bool
  | .bool b => some b
  | _ => none

/-- A natural number below a bound. -/
def natural (bound : Nat) : Decoder Nat
  | .integer n => if 0 ≤ n && n < bound then some n.toNat else none
  | _ => none

/-- A number; a 64-bit integer is accepted. -/
def number : Decoder Float
  | .real x => some x
  | .integer n => if -(Decimal.integerBound : Int) ≤ n && n < UInt64.size then some (Float.ofInt n) else none
  | _ => none

/-- An optional value that is present. -/
def present {α : Type} (d : Decoder α) : Decoder (Option α) := fun v => (d v).map some

/-- A list of records. -/
def list {α : Type} (d : Decoder α) : Decoder (List α)
  | .array items => items.mapM d
  | .tables items => items.mapM fun ms => d (.table .headed ms)
  | _ => none

/-- The fields of a section by name, of a table or of an array in order. -/
def field? (names : List String) : Value → Option (String → Option Value)
  | .table _ ms => some fun name => Toml.find? name ms
  | .array items => some fun name => items[names.idxOf name]?
  | .tables items => some fun name => (items[names.idxOf name]?).map (.table .headed)
  | _ => none

/-- A field with a default. -/
def orElse {α : Type} (d : Decoder α) (default : α) : Option Value → Option α
  | some v => d v
  | none => some default

/-- A 64-bit natural number. -/
abbrev wide : Decoder Nat := natural UInt64.size

def Agent.decode : Decoder Agent := fun v => do
  let f ← field? ["memory_depth", "llm_timeout_secs", "chain_timeout_secs", "request_timeout_secs"] v
  let d : Agent := {}
  return {
    memoryDepth := ← orElse wide d.memoryDepth (f "memory_depth")
    llmTimeoutSecs := ← orElse wide d.llmTimeoutSecs (f "llm_timeout_secs")
    chainTimeoutSecs := ← orElse wide d.chainTimeoutSecs (f "chain_timeout_secs")
    requestTimeoutSecs := ← orElse wide d.requestTimeoutSecs (f "request_timeout_secs") }

def OpenAi.decode : Decoder OpenAi := fun v => do
  let f ← field? ["api_key", "api_key_env", "base_url", "model", "temperature", "timeout_secs"] v
  let d : OpenAi := {}
  return {
    apiKey := ← orElse (present text) d.apiKey (f "api_key")
    apiKeyEnv := ← orElse text d.apiKeyEnv (f "api_key_env")
    baseUrl := ← orElse text d.baseUrl (f "base_url")
    model := ← orElse text d.model (f "model")
    temperature := ← orElse number d.temperature (f "temperature")
    timeoutSecs := ← orElse wide d.timeoutSecs (f "timeout_secs") }

def Ollama.decode : Decoder Ollama := fun v => do
  let f ← field? ["base_url", "model", "temperature", "timeout_secs"] v
  let d : Ollama := {}
  return {
    baseUrl := ← orElse text d.baseUrl (f "base_url")
    model := ← orElse text d.model (f "model")
    temperature := ← orElse number d.temperature (f "temperature")
    timeoutSecs := ← orElse wide d.timeoutSecs (f "timeout_secs") }

def Script.decode : Decoder Script := fun v => do
  let f ← field? ["interpreter", "script_path", "working_dir", "timeout_secs"] v
  let d : Script := {}
  return {
    interpreter := ← orElse text d.interpreter (f "interpreter")
    scriptPath := ← orElse text d.scriptPath (f "script_path")
    workingDir := ← orElse (present text) d.workingDir (f "working_dir")
    timeoutSecs := ← orElse wide d.timeoutSecs (f "timeout_secs") }

def Reasoning.decode : Decoder Reasoning := fun v => do
  let f ← field? ["provider", "openai", "ollama", "script"] v
  let d : Reasoning := {}
  return {
    provider := ← orElse text d.provider (f "provider")
    openai := ← orElse OpenAi.decode d.openai (f "openai")
    ollama := ← orElse Ollama.decode d.ollama (f "ollama")
    script := ← orElse Script.decode d.script (f "script") }

def Knowledge.decode : Decoder Knowledge := fun v => do
  let f ← field? ["source", "max_results"] v
  let d : Knowledge := {}
  return {
    source := ← orElse text d.source (f "source")
    maxResults := ← orElse wide d.maxResults (f "max_results") }

def Storage.decode : Decoder Storage := fun v => do
  let f ← field? ["driver", "data_dir", "sqlite_path", "max_connections"] v
  let d : Storage := {}
  return {
    driver := ← orElse text d.driver (f "driver")
    dataDir := ← orElse text d.dataDir (f "data_dir")
    sqlitePath := ← orElse (present text) d.sqlitePath (f "sqlite_path")
    maxConnections := ← orElse (natural UInt32.size) d.maxConnections (f "max_connections") }

def Network.decode : Decoder Network := fun v => do
  let f ← field? ["name", "kind", "rpc_url", "description"] v
  return {
    name := ← (f "name") >>= text
    kind := ← orElse text "evm" (f "kind")
    rpcUrl := ← (f "rpc_url") >>= text
    description := ← orElse text "" (f "description") }

def Chain.decode : Decoder Chain := fun v => do
  let f ← field? ["default_network", "networks"] v
  let d : Chain := {}
  return {
    defaultNetwork := ← orElse text d.defaultNetwork (f "default_network")
    networks := ← orElse (list Network.decode) d.networks (f "networks") }

def Client.decode : Decoder Client := fun v => do
  let f ← field? ["id", "secret"] v
  return { id := ← (f "id") >>= text, secret := ← (f "secret") >>= text }

def Gateway.decode : Decoder Gateway := fun v => do
  let f ← field? ["port", "host", "require_auth", "token_ttl_secs", "clients"] v
  let d : Gateway := {}
  return {
    port := ← orElse (natural UInt16.size) d.port (f "port")
    host := ← orElse text d.host (f "host")
    requireAuth := ← orElse truth d.requireAuth (f "require_auth")
    tokenTtlSecs := ← orElse wide d.tokenTtlSecs (f "token_ttl_secs")
    clients := ← orElse (list Client.decode) d.clients (f "clients") }

def Logging.decode : Decoder Logging := fun v => do
  let f ← field? ["level"] v
  return { level := ← orElse text "info" (f "level") }

/-- The configuration of the members of a document. -/
def ofMembers (ms : Toml.Members) : Option Settings := do
  let f (name : String) : Option Value := Toml.find? name ms
  return {
    agent := ← orElse Agent.decode {} (f "agent")
    reasoning := ← orElse Reasoning.decode {} (f "reasoning")
    knowledge := ← orElse Knowledge.decode {} (f "knowledge")
    storage := ← orElse Storage.decode {} (f "storage")
    chain := ← orElse Chain.decode {} (f "chain")
    gateway := ← orElse Gateway.decode {} (f "gateway")
    logging := ← orElse Logging.decode {} (f "logging") }

/-- The configuration of a document. -/
def parse (s : String) : Option Settings := Toml.parse s >>= ofMembers

end ChainAgent.Settings
