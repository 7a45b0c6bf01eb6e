import ChainAgent.Http.Message
import ChainAgent.Json.Decode
import ChainAgent.Reasoning.Prompt
import ChainAgent.Reasoning.Reply
import ChainAgent.Settings.Basic
import ChainAgent.Text.Redaction

/-! Chat backends.

Both kinds get the same two messages and answer with one. They differ in the endpoint, in the form
of request and response, and in whether an API key is sent. -/
namespace ChainAgent.Reasoning

open Json (Value)

/-- The API of a chat server. -/
inductive Protocol where
  /-- Chat completions, with an optional API key. -/
  | openai (key : Option String)
  | ollama

/-- A chat server and its settings. -/
structure Chat where
  protocol : Protocol
  base : String
  model : String
  temperature : Float
  timeout : Time.Span

namespace Chat

/-- A base URL without its trailing slashes. -/
def withoutSlashes (s : String) : String :=
  String.ofList (s.toList.reverse.dropWhile (· == '/')).reverse

def ofOpenAi (s : Settings.OpenAi) (key : Option String) : Chat where
  protocol := .openai ((key.map Text.trim).filter (!·.isEmpty))
  base := withoutSlashes s.baseUrl
  model := s.model
  temperature := s.temperature
  timeout := .ofSecs (max s.timeoutSecs 1)

def ofOllama (s : Settings.Ollama) : Chat where
  protocol := .ollama
  base := withoutSlashes s.baseUrl
  model := s.model
  temperature := s.temperature
  timeout := .ofSecs (max s.timeoutSecs 1)

def name (c : Chat) : String :=
  match c.protocol with
  | .openai _ => "openai"
  | .ollama => "ollama"

def address (c : Chat) : String :=
  match c.protocol with
  | .openai _ => c.base ++ "/chat/completions"
  | .ollama => c.base ++ "/api/chat"

def authorization (c : Chat) : Option String :=
  match c.protocol with
  | .openai key => key.map ("Bearer " ++ ·)
  | .ollama => none

def message (role content : String) : Value :=
  .object [("role", .text role), ("content", .text content)]

def body (c : Chat) (r : Request) : Value :=
  let messages : Value := .array [message "system" systemPrompt, message "user" (userPrompt r)]
  match c.protocol with
  | .openai _ =>
    .object [("model", .text c.model), ("messages", messages), ("temperature", .ofFloat c.temperature)]
  | .ollama =>
    .object [("model", .text c.model), ("messages", messages), ("stream", .bool false),
      ("format", .text "json"), ("options", .object [("temperature", .ofFloat c.temperature)])]

/-! ### Answers -/

def contentShape : Json.Shape := ⟨"ResponseMessage", [Json.optional "content" Json.string]⟩

/-- The content of a message, if it has one. -/
def optionalContent : Json.Decoder (Option String) := fun n => do
  let found ← contentShape.scan .text n
  return Json.fieldOr found "content" (Json.nullable Json.string) none

def choiceShape : Json.Shape := ⟨"Choice", [Json.required "message" optionalContent]⟩

def choice : Json.Decoder (Option String) := fun n => do
  let found ← choiceShape.scan .text n
  return Json.fieldOr found "message" optionalContent none

def choicesShape : Json.Shape := ⟨"ChatResponse", [Json.defaulted "choices" (Json.list choice)]⟩

/-- The content of the first choice, if there is one. -/
def firstChoice : Json.Decoder (Option String) := fun n => do
  let found ← choicesShape.scan .text n
  return (Json.fieldOr found "choices" (Json.list choice) []).head?.join

def plainContentShape : Json.Shape := ⟨"ResponseMessage", [Json.defaulted "content" Json.string]⟩

/-- The content of a message; a missing one is empty. -/
def plainContent : Json.Decoder String := fun n => do
  let found ← plainContentShape.scan .text n
  return Json.fieldOr found "content" Json.string ""

def messageShape : Json.Shape := ⟨"ChatResponse", [Json.required "message" plainContent]⟩

def onlyMessage : Json.Decoder (Option String) := fun n => do
  let found ← messageShape.scan .text n
  return some (Json.fieldOr found "message" plainContent "")

/-- The content of a response, if it has one. -/
def content (c : Chat) : Json.Decoder (Option String) :=
  match c.protocol with
  | .openai _ => firstChoice
  | .ollama => onlyMessage

/-- The reply of a response. -/
def replyOf (c : Chat) (answer : Http.Answer) : Except Failure Reply :=
  let r := answer.response
  if !r.isSuccess then .error (.status c.name r.status (Text.sanitize r.text))
  else
    match r.strictText.map (Json.decodeText c.content) with
    | some (.ok (some content)) => parseReply content
    | some (.ok none) => .error .emptyReply
    | _ => .error (.undecodable c.name (Http.undecodableBody answer.url))

/-- Asks the chat server for a reply. -/
def generate {m : Type → Type} [Monad m] (t : Http.Transport m) (c : Chat) (r : Request) :
    m (Except Failure Reply) := do
  match ← Http.post t c.address c.authorization (c.body r) with
  | .error f => return .error (.unreachable c.name (Text.sanitize f.message))
  | .ok answer => return c.replyOf answer

end Chat

end ChainAgent.Reasoning
