import ChainAgent.Chain.Failure
import ChainAgent.Http.Message
import ChainAgent.Json.Decode
import ChainAgent.Text.Redaction

/-! JSON-RPC calls over HTTP.

Every call of one executor takes the next number as its id, whether or not an answer comes. A peer's
error message is redacted and truncated before it enters a failure; a result that does not decode is
quoted as it came. -/
namespace ChainAgent.Chain

open Json (Value Node Decoder)

/-- A computation of an executor: it counts the calls and may fail. -/
abbrev Call (m : Type → Type) := ExceptT Failure (StateT UInt64 m)

/-- The error object of an answer. -/
structure PeerError where
  code : Int
  message : String

/-- The answer to one call; its result is not decoded yet. -/
structure PeerAnswer where
  id : Option Nat
  result : Option Node
  error : Option PeerError

def peerErrorShape : Json.Shape :=
  ⟨"RpcErrorBody", [Json.defaulted "code" Json.integer, Json.defaulted "message" Json.string]⟩

def peerError : Decoder PeerError := fun n => do
  let found ← peerErrorShape.scan .value n
  return ⟨Json.fieldOr found "code" Json.integer 0, Json.fieldOr found "message" Json.string ""⟩

/-- Any JSON value. -/
def anything : Decoder Node := .ok

def peerAnswerShape : Json.Shape := ⟨"RpcResponse", [
  Json.defaulted "id" (Json.nullable Json.unsigned),
  Json.defaulted "result" (Json.nullable anything),
  Json.defaulted "error" (Json.nullable peerError)]⟩

def peerAnswer : Decoder PeerAnswer := fun n => do
  let found ← peerAnswerShape.scan .value n
  return {
    id := Json.fieldOr found "id" (Json.nullable Json.unsigned) none
    result := Json.fieldOr found "result" (Json.nullable anything) none
    error := Json.fieldOr found "error" (Json.nullable peerError) none }

/-- The result of a decoder, or the decode failure of the call. -/
def decoded {α : Type} (method : String) (d : Decoder α) (n : Node) : Except Failure α :=
  match d n with
  | .ok a => .ok a
  | .error f => .error (.undecodable method f.plainMessage)

/-- The decoded result of an answer, unless the answer is an error. -/
def PeerAnswer.decode {α : Type} (method : String) (d : Decoder α) (a : PeerAnswer) :
    Except Failure α :=
  match a.error with
  | some e =>
    .error (.rpc method (Text.sanitize e.message ++ " (code " ++ toString e.code ++ ")"))
  | none => decoded method d (a.result.getD .null)

/-- The request object of one call. -/
def callBody (id : UInt64) (method : String) (params : List Value) : Value :=
  .object [("id", .ofNat id.toNat), ("jsonrpc", .text "2.0"), ("method", .text method),
    ("params", .array params)]

variable {m : Type → Type} [Monad m]

/-- The next call id. -/
def nextId : Call m UInt64 := do
  let id ← get
  set (id + 1)
  return id

/-- The JSON value that a node answers to a posted value. -/
def post (t : Http.Transport m) (address method : String) (body : Value) : Call m Value := do
  let answer : Except Http.Fault Http.Answer ← liftM (Http.post t address none body)
  match answer with
  | .error f => throw (.transport (Text.sanitize f.message))
  | .ok answer =>
    let r := answer.response
    if !r.isSuccess then
      throw (.rpc method ("HTTP " ++ toString r.status ++ ": " ++ Text.sanitize r.text))
    match r.strictText >>= Json.parse with
    | some v => return v
    | none => throw (.undecodable method (Http.undecodableBody answer.url))

/-- The decoded result of one call. -/
def call {α : Type} (t : Http.Transport m) (address method : String) (params : List Value)
    (d : Decoder α) : Call m α := do
  let id ← nextId
  let raw ← post t address method (callBody id method params)
  let answer ← ofExcept (decoded method peerAnswer raw.node)
  ofExcept (answer.decode method d)
where
  ofExcept {β : Type} (e : Except Failure β) : Call m β := ExceptT.mk (pure e)

end ChainAgent.Chain
