import ChainAgent.Gateway.Refusal
import ChainAgent.Json.Printer
import ChainAgent.Ledger.Stats
import ChainAgent.Task.Record

/-! Responses of the gateway. -/
namespace ChainAgent.Gateway

open Json (Value)

structure Answer where
  status : Nat
  contentType : Option String := none
  /-- The `Allow` header, of a request with a method that the route lacks. -/
  allow : Option String := none
  requestId : Option String := none
  body : String := ""

namespace Answer

def json (status : Nat) (v : Value) : Answer :=
  {status := status, contentType := some "application/json", body := Json.compact v}

def refusal (r : Refusal) : Answer :=
  json r.status (.object [("code", .text r.code), ("message", .text r.message)])

/-- 404: there is no such route. -/
def missing : Answer := {status := 404}

/-- 405: the route lacks the method. -/
def notAllowed (methods : String) : Answer := {status := 405, allow := some methods}

/-- 413: the declared length is above the limit. -/
def tooLarge : Answer :=
  {status := 413, contentType := some "text/plain; charset=utf-8", body := "length limit exceeded"}

/-- 408: the request timed out. -/
def late : Answer := {status := 408}

def health (store : String) (requireAuth : Bool) : Answer :=
  json 200 (.object [("require_auth", .bool requireAuth), ("status", .text "ok"), ("store", .text store)])

def exposition (text : String) : Answer :=
  {status := 200, contentType := some "text/plain; version=0.0.4", body := text}

def token (token : String) (lifetimeSecs : Nat) : Answer :=
  json 200 (.object [("access_token", .text token), ("expires_in", .ofNat lifetimeSecs),
    ("token_type", .text "Bearer")])

def lockedOut (retryAfter : Nat) : Answer :=
  json 429 (.object [("code", .text "locked_out"),
    ("message", .text ("Too many failed attempts. Try again in " ++ toString retryAfter ++ "s.")),
    ("retry_after", .ofNat retryAfter)])

/-- The response to a created task. -/
def created (t : Task) : Answer :=
  json 201 (.object [("id", .ofInt t.id.toInt), ("reply", .text t.reply),
    ("observations", .text t.observations), ("chain_id", .text t.chainId),
    ("block_number", .text t.blockNumber), ("created_at", .ofInt t.createdAt.toInt)])

def task (t : Task) : Answer := json 200 t.toJson

def tasks (ts : List Task) : Answer := json 200 (.object [("tasks", .array (ts.map Task.toJson))])

def stats (store : String) (s : Ledger.Stats) : Answer :=
  let time : Option Int64 → Value
    | some t => .ofInt t.toInt
    | none => .null
  json 200 (.object [("newest_created_at", time s.newest), ("oldest_created_at", time s.oldest),
    ("store", .text store), ("total", .ofNat s.total)])

/-- The response to HEAD: without its body. -/
def headersOnly (a : Answer) : Answer := {a with body := ""}

end Answer

end ChainAgent.Gateway
