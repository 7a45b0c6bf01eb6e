import ChainAgent.Reasoning.Chat
import ChainAgent.Reasoning.Script

/-! The configured reasoning backend. -/
namespace ChainAgent.Reasoning

inductive Backend where
  | chat (c : Chat)
  | script (s : Script)

namespace Backend

def name : Backend → String
  | .chat c => c.name
  | .script _ => "script"

/-- The default timeout of the backend. -/
def timeout : Backend → Time.Span
  | .chat c => c.timeout
  | .script s => s.timeout

variable {m : Type → Type} [Monad m]

def generate (h : Host m) : Backend → Request → m (Except Failure Reply)
  | .chat c, r => c.generate h.toTransport r
  | .script s, r => s.generate h r

end Backend

/-- Why the backend cannot be created. -/
inductive WiringFailure where
  | keyMissing (variableName : String)
  | unknownProvider (provider : String)

def WiringFailure.message : WiringFailure → String
  | .keyMissing name =>
    "OpenAI API key not set. Set [reasoning.openai] api_key or export " ++ name
  | .unknownProvider p =>
    "Unknown reasoning provider '" ++ p ++ "'. Supported: openai, ollama, script"

variable {m : Type → Type} [Monad m]

/-- The first of some environment variables that is not blank, trimmed. -/
def firstVariable (h : Host m) : List String → m (Option String)
  | [] => return none
  | name :: rest => do
    match ((← h.environment name).map Text.trim).filter (!·.isEmpty) with
    | some value => return some value
    | none => firstVariable h rest

/-- The API key: the configured one, else that of the configured variable, else that of
`OPENAI_API_KEY`. A blank key is none. -/
def resolveApiKey (h : Host m) (s : Settings.OpenAi) : m (Option String) := do
  match (s.apiKey.map Text.trim).filter (!·.isEmpty) with
  | some key => return some key
  | none => firstVariable h ([s.apiKeyEnv, "OPENAI_API_KEY"].filter (!·.isEmpty))

/-- The host that requires an API key. -/
def keyedServer : String := "api.openai.com"

/-- The configured backend. -/
def createBackend (h : Host m) (s : Settings) : m (Except WiringFailure Backend) := do
  let r := s.reasoning
  match r.provider with
  | "openai" =>
    let key ← resolveApiKey h r.openai
    if key.isNone && Text.occurs keyedServer.toList r.openai.baseUrl.toList then
      return .error (.keyMissing r.openai.apiKeyEnv)
    return .ok (.chat (.ofOpenAi r.openai key))
  | "ollama" => return .ok (.chat (.ofOllama r.ollama))
  | "script" => return .ok (.script (.ofSettings s (← h.home)))
  | other => return .error (.unknownProvider other)

end ChainAgent.Reasoning
