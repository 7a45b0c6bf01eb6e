import ChainAgent.Decimal.Integer
import ChainAgent.Files.Path
import ChainAgent.Text.Lowercase
import ChainAgent.Time.Span

/-! The configuration of the program and its defaults. -/
namespace ChainAgent

namespace Settings

/-- Limits and timeouts of a run. -/
structure Agent where
  /-- How many past tasks a run recalls. -/
  memoryDepth : Nat := 5
  llmTimeoutSecs : Nat := 0
  chainTimeoutSecs : Nat := 15
  requestTimeoutSecs : Nat := 120

namespace Agent

/-- The timeout of reasoning; without one the backend's own applies. -/
def llmTimeout (a : Agent) : Option Time.Span :=
  if a.llmTimeoutSecs == 0 then none else some (.ofSecs a.llmTimeoutSecs)

def chainTimeout (a : Agent) : Time.Span := .ofSecs (max a.chainTimeoutSecs 1)

def requestTimeout (a : Agent) : Time.Span := .ofSecs (max a.requestTimeoutSecs 1)

end Agent

structure OpenAi where
  apiKey : Option String := none
  apiKeyEnv : String := "OPENAI_API_KEY"
  baseUrl : String := "https://api.openai.com/v1"
  model : String := "gpt-4o-mini"
  temperature : Float := 0.2
  timeoutSecs : Nat := 60

structure Ollama where
  baseUrl : String := "http://localhost:11434"
  model : String := "qwen2.5:7b"
  temperature : Float := 0.2
  timeoutSecs : Nat := 300

structure Script where
  interpreter : String := "python3"
  scriptPath : String := "scripts/llm_bridge.py"
  workingDir : Option String := none
  timeoutSecs : Nat := 60

structure Reasoning where
  provider : String := "script"
  openai : OpenAi := {}
  ollama : Ollama := {}
  script : Script := {}

structure Knowledge where
  /-- The file of the static source; blank for none. -/
  source : String := ""
  maxResults : Nat := 3

/-- Whether a knowledge source is configured. -/
def Knowledge.isEnabled (k : Knowledge) : Bool := !Text.saysNothing k.source && 0 < k.maxResults

structure Storage where
  driver : String := "memory"
  dataDir : String := "data"
  sqlitePath : Option String := none
  maxConnections : Nat := 5

structure Network where
  name : String
  kind : String := "evm"
  rpcUrl : String
  description : String := ""

structure Chain where
  defaultNetwork : String := ""
  networks : List Network := []

/-- The default network: the configured one, otherwise the first. -/
def Chain.defaultNetworkName (c : Chain) : Option String :=
  if Text.saysNothing c.defaultNetwork then c.networks.head?.map (·.name)
  else some (Text.trim c.defaultNetwork)

/-- The credentials of a client of the gateway. -/
structure Client where
  id : String
  secret : String
deriving DecidableEq

structure Gateway where
  port : Nat := 8080
  host : String := "127.0.0.1"
  requireAuth : Bool := true
  tokenTtlSecs : Nat := 86400
  clients : List Client := []

structure Logging where
  level : String := "info"

/-- The log levels, from errors alone to everything. -/
inductive Level where
  | error
  | warn
  | info
  | debug
  | trace
deriving DecidableEq

namespace Level

/-- The levels by their names, numbered from one. -/
def all : List (String × Level) :=
  [("ERROR", .error), ("WARN", .warn), ("INFO", .info), ("DEBUG", .debug), ("TRACE", .trace)]

def name (l : Level) : String := ((all.find? (·.2 == l)).map (·.1)).getD ""

/-- The level of a name, ignoring case, or of a number. -/
def parse? (s : String) : Option Level :=
  let byNumber := match Decimal.natural? UInt64.size s with
    | some (n + 1) => (all[n]?).map (·.2)
    | _ => none
  byNumber <|> (all.find? (·.1.toList == s.toList.map Char.toUpper)).map (·.2)

end Level

/-- The effective level; an invalid one stands for `info`. -/
def Logging.maxLevel (l : Logging) : Level := (Level.parse? (Text.trim l.level)).getD .info

end Settings

/-- The whole configuration, with its file and the directory that its relative paths start from. -/
structure Settings where
  path : String := ""
  baseDir : String := ""
  agent : Settings.Agent := {}
  reasoning : Settings.Reasoning := {}
  knowledge : Settings.Knowledge := {}
  storage : Settings.Storage := {}
  chain : Settings.Chain := {}
  gateway : Settings.Gateway := {}
  logging : Settings.Logging := {}

namespace Settings

/-- A configured path. -/
def resolve (s : Settings) (home : Option String) (raw : String) : String :=
  Files.Path.resolve s.baseDir home raw

def dataDir (s : Settings) (home : Option String) : String := s.resolve home s.storage.dataDir

end Settings

end ChainAgent
