import ChainAgent.Decimal.Integer
import ChainAgent.Http.Message
import ChainAgent.Json.Reader

/-! HTTP messages as bytes.

A message is a head of lines and a body. The body is chunked, or it has a `Content-Length`, or it
ends with the connection. -/
namespace ChainAgent.Http.Wire

/-- The state of parsing the bytes that have arrived. -/
inductive Progress (α : Type) where
  | done (a : α)
  | unfinished
  | malformed

def Progress.map {α β : Type} (f : α → β) : Progress α → Progress β
  | .done a => .done (f a)
  | .unfinished => .unfinished
  | .malformed => .malformed

/-- A message; the names of its headers are in lowercase. -/
structure Message where
  start : String
  headers : List (String × String)
  body : List UInt8

def header? (headers : List (String × String)) (name : String) : Option String :=
  (headers.find? (·.1 == name)).map (·.2)

/-! ### Lines -/

/-- The first line, and the bytes after its line break. -/
def cutLine : List UInt8 → Option (List UInt8 × List UInt8)
  | [] => none
  | 13 :: 10 :: rest => some ([], rest)
  | b :: rest => (cutLine rest).map fun (line, behind) => (b :: line, behind)

/-- The lines up to the first empty one, and the bytes after it; `fuel` bounds the lines. -/
def cutHead : Nat → List UInt8 → Option (List String × List UInt8)
  | 0, _ => none
  | fuel + 1, bytes =>
    match cutLine bytes with
    | none => none
    | some ([], rest) => some ([], rest)
    | some (line, rest) =>
      (cutHead fuel rest).map fun (lines, behind) =>
        (Text.decodeLossy ⟨line.toArray⟩ :: lines, behind)

/-- The name of a header in lowercase, and its value. -/
def headerOf? (line : String) : Option (String × String) :=
  let cs := line.toList
  let name := cs.takeWhile (· != ':')
  if name.isEmpty || name.length == cs.length then none
  else some (String.ofList (name.map Char.toLower), Text.trim (String.ofList (cs.drop (name.length + 1))))

/-! ### Bodies -/

/-- The length of a chunk, in hex before any extension. -/
def pieceLength (line : List UInt8) : Option Nat :=
  let digits := (line.map fun b => Char.ofNat b.toNat).takeWhile fun c => c != ';' && c != ' '
  if digits.isEmpty then none
  else digits.foldlM (fun n c => (Json.hexValue c).map (n * 16 + ·)) 0

/-- The chunks of a body up to the empty one; `fuel` bounds their number. -/
def pieces (made : List UInt8) : Nat → List UInt8 → Progress (List UInt8)
  | 0, _ => .unfinished
  | fuel + 1, bytes =>
    match cutLine bytes with
    | none => .unfinished
    | some (line, rest) =>
      match pieceLength line with
      | none => .malformed
      | some 0 => .done made
      | some n =>
        if rest.length < n + 2 then .unfinished
        else pieces (made ++ rest.take n) fuel (rest.drop (n + 2))

/-- Where a body ends whose head gives neither chunks nor a length. -/
inductive End where
  /-- The head: there is no body. -/
  | atHead
  /-- The end of the connection. -/
  | atClose
deriving DecidableEq

/-- The body after a head, as far as it has arrived. -/
def bodyOf (headers : List (String × String)) (silent : End) (isClosed : Bool)
    (bytes : List UInt8) : Progress (List UInt8) :=
  let open_ : Progress (List UInt8) := if isClosed then .malformed else .unfinished
  if (header? headers "transfer-encoding").isSome then
    match pieces [] bytes.length bytes with
    | .unfinished => open_
    | p => p
  else
    match header? headers "content-length", silent with
    | some length, _ =>
      match Decimal.natural? UInt64.size length with
      | none => .malformed
      | some n => if n ≤ bytes.length then .done (bytes.take n) else open_
    | none, .atHead => .done []
    | none, .atClose => if isClosed then .done bytes else .unfinished

/-- Parses a message as far as it has arrived. -/
def read (silent : End) (isClosed : Bool) (bytes : List UInt8) : Progress Message :=
  match cutHead bytes.length bytes with
  | none => if isClosed then .malformed else .unfinished
  | some ([], _) => .malformed
  | some (start :: lines, rest) =>
    match lines.mapM headerOf? with
    | none => .malformed
    | some headers => (bodyOf headers silent isClosed rest).map fun body => ⟨start, headers, body⟩

/-- The bytes of a message. -/
def write (m : Message) : ByteArray :=
  let head := m.start :: m.headers.map fun (name, value) => name ++ ": " ++ value
  (String.join (head.map (· ++ "\r\n")) ++ "\r\n").toUTF8 ++ ⟨m.body.toArray⟩

/-! ### What a client sends and gets -/

/-- A request on a connection of its own. -/
def ofRequest (r : Request) : Message :=
  let body := r.body.toUTF8.toList
  let header (name : String) (value : Option String) : List (String × String) :=
    (value.map (name, ·)).toList
  { start := r.method ++ " " ++ r.url.target ++ " HTTP/1.1"
    headers := header "content-type" r.contentType ++ header "authorization" r.authorization ++
      [("accept", "*/*"), ("host", r.url.authority), ("connection", "close"),
        ("content-length", toString body.length)]
    body := body }

/-- The response of a message. -/
def Message.response? (m : Message) : Option Response :=
  match m.start.splitOn " " with
  | _ :: code :: _ => (Decimal.natural? 1000 code).map fun status =>
      ⟨status, ⟨m.body.toArray⟩, header? m.headers "location"⟩
  | _ => none

/-- Parses a response as far as it has arrived. -/
def readResponse (isClosed : Bool) (bytes : List UInt8) : Progress Response :=
  match read .atClose isClosed bytes with
  | .unfinished => .unfinished
  | .malformed => .malformed
  | .done m =>
    match m.response? with
    | some r => .done r
    | none => .malformed

end ChainAgent.Http.Wire
