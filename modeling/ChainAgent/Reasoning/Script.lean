import ChainAgent.Host.Basic
import ChainAgent.Json.Decode
import ChainAgent.Json.Printer
import ChainAgent.Reasoning.Reply
import ChainAgent.Settings.Basic
import ChainAgent.Text.Redaction

/-! The script backend.

The script reads one JSON object with the request on its standard input and prints its reply, or an
object with an error. -/
namespace ChainAgent.Reasoning

open Json (Value)

structure Script where
  interpreter : String
  path : String
  directory : String
  timeout : Time.Span

namespace Script

/-- The path of a script relative to a base. -/
def resolvePath (base raw : String) : String := Files.Path.join base (Text.trim raw)

def ofSettings (s : Settings) (home : Option String) : Script :=
  let script := s.reasoning.script
  { interpreter := script.interpreter
    path := resolvePath s.baseDir script.scriptPath
    directory := match script.workingDir with
      | some directory => s.resolve home directory
      | none => s.baseDir
    timeout := .ofSecs (max script.timeoutSecs 1) }

def pastTask (p : PastTask) : Value :=
  .object [("goal", .text p.goal), ("chain_action", .text p.chainAction), ("reply", .text p.reply),
    ("observations", .text p.observations), ("created_at", .ofInt p.createdAt.toInt)]

def card (c : Knowledge.Card) : Value :=
  .object [("title", .text c.title), ("content", .text c.content)]

/-- The standard input of a script. -/
def payload (r : Request) (now : Int64) : String :=
  Json.compact (.object [
    ("goal", .text r.goal),
    ("chain_action", .text r.chainAction),
    ("address", .text r.address),
    ("history", .array (r.history.map pastTask)),
    ("knowledge", .array (r.knowledge.map card)),
    ("timestamp", .ofInt now.toInt)])

def failureShape : Json.Shape := ⟨"ScriptFailure", [Json.required "error" Json.string]⟩

/-- The error message of an output. -/
def failure : Json.Decoder String := fun n => do
  let found ← failureShape.scan .text n
  return Json.fieldOr found "error" Json.string ""

/-- The error message of an output, if it is an error object. -/
def failure? (output : String) : Option String :=
  (Json.decodeText failure (Text.trim output)).toOption.filter (!Text.saysNothing ·)

/-- The reply of the output of a script that exited with status 0. -/
def replyOf (output : String) : Except Failure Reply :=
  match failure? output with
  | some message => .error (.process (Text.sanitize message))
  | none => parseReply output

/-- The reply of a script that has exited. -/
def concluded (c : Host.Completion) : Except Failure Reply :=
  if c.ending.isSuccess then replyOf (Text.decodeLossy c.output)
  else
    .error (.process ("script exited with " ++ c.ending.text ++ ": " ++
      Text.sanitize (Text.decodeLossy c.errors)))

/-- Runs the script. -/
def generate {m : Type → Type} [Monad m] (h : Host m) (s : Script) (r : Request) :
    m (Except Failure Reply) := do
  match ← h.run ⟨s.interpreter, s.path, s.directory, payload r (← h.now)⟩ with
  | .error f =>
    return .error (.process
      ("failed to spawn " ++ s.interpreter ++ " " ++ s.path ++ ": " ++ f.message))
  | .ok c => return concluded c

end Script

end ChainAgent.Reasoning
