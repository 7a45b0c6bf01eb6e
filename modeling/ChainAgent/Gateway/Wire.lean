import ChainAgent.Gateway.Answer
import ChainAgent.Gateway.Request
import ChainAgent.Http.Wire

/-! HTTP requests and responses of the gateway as bytes. -/
namespace ChainAgent.Gateway

open Http.Wire (Message Progress)

/-- The request of a message. -/
def Request.ofMessage? (m : Message) : Option Request :=
  match m.start.splitOn " " with
  | [method, target, _] => some ⟨method, target, m.headers, Text.decodeLossy ⟨m.body.toArray⟩⟩
  | _ => none

/-- Parses a request as far as it has arrived. One whose declared length is above the limit is read
without its body. -/
def Request.read (bytes : List UInt8) : Progress Request :=
  let asRequest (m : Message) : Progress Request :=
    match Request.ofMessage? m with
    | some r => .done r
    | none => .malformed
  match Http.Wire.cutHead bytes.length bytes with
  | some (start :: lines, _) =>
    let headOnly : Message := ⟨start, lines.filterMap Http.Wire.headerOf?, []⟩
    if (Request.ofMessage? headOnly).any (·.isOversized) then asRequest headOnly
    else
      match Http.Wire.read .atHead false bytes with
      | .done m => asRequest m
      | .unfinished => .unfinished
      | .malformed => .malformed
  | some ([], _) => .malformed
  | none => .unfinished

/-- The reason phrase of a status. -/
def reason : Nat → String
  | 200 => "OK"
  | 201 => "Created"
  | 400 => "Bad Request"
  | 401 => "Unauthorized"
  | 404 => "Not Found"
  | 405 => "Method Not Allowed"
  | 408 => "Request Timeout"
  | 413 => "Payload Too Large"
  | 429 => "Too Many Requests"
  | 500 => "Internal Server Error"
  | 502 => "Bad Gateway"
  | 504 => "Gateway Timeout"
  | _ => ""

/-- A response that closes its connection. -/
def Answer.toMessage (a : Answer) : Message :=
  let body := a.body.toUTF8.toList
  let header (name : String) (value : Option String) : List (String × String) :=
    (value.map (name, ·)).toList
  { start := "HTTP/1.1 " ++ toString a.status ++ " " ++ reason a.status
    headers := header "content-type" a.contentType ++ header "allow" a.allow ++
      header "x-request-id" a.requestId ++
      [("content-length", toString body.length), ("connection", "close")]
    body := body }

end ChainAgent.Gateway
