import ChainAgent.Decimal.Integer
import ChainAgent.Gateway.Refusal
import ChainAgent.Http.Form
import ChainAgent.Http.MediaType
import ChainAgent.Http.Message
import ChainAgent.Json.Decode

/-! Requests to the gateway and their content. -/
namespace ChainAgent.Gateway

structure Request where
  method : String
  /-- The path with its query. -/
  target : String
  headers : List (String × String)
  body : String

namespace Request

/-- The target without its fragment. -/
def reference (r : Request) : List Char := r.target.toList.takeWhile (· != '#')

def path (r : Request) : String := String.ofList (r.reference.takeWhile (· != '?'))

def query (r : Request) : String := String.ofList ((r.reference.dropWhile (· != '?')).drop 1)

/-- The first header with a lowercase name, if its value is printable ASCII. -/
def header? (r : Request) (name : String) : Option String :=
  match r.headers.find? fun (n, _) => n.toList.map Char.toLower == name.toList with
  | some (_, value) =>
    if value.toList.all fun c => (32 ≤ c.toNat && c.toNat < 127) || c == '\t' then some value else none
  | none => none

/-- The most bytes of a body. -/
def bodyLimit : Nat := 65536

/-- The `Content-Length` of a request. -/
def declaredLength (r : Request) : Option Nat :=
  r.header? "content-length" >>= Decimal.natural? UInt64.size

/-- Whether the declared length is above the limit. -/
def isOversized (r : Request) : Bool := r.declaredLength.any (bodyLimit < ·)

/-- Whether the body is longer than the limit. -/
def overflows (r : Request) : Bool :=
  min bodyLimit (r.declaredLength.getD bodyLimit) < r.body.utf8ByteSize

def isJson (r : Request) : Bool :=
  ((r.header? "content-type") >>= Http.MediaType.parse?).any (·.isJson)

/-- The bearer token of a request, empty if it has none. -/
def bearerToken (r : Request) : String :=
  let scheme := "Bearer ".toList
  match (r.header? "authorization").map (·.toList) with
  | some cs => if scheme.isPrefixOf cs then Text.trim (String.ofList (cs.drop scheme.length)) else ""
  | none => ""

/-- The error response to an invalid request. -/
def invalid (message : String) : Refusal := ⟨400, "invalid_input", message⟩

/-- The decoded JSON body. -/
def decodeBody {α : Type} (r : Request) (d : Json.Decoder α) : Except Refusal α :=
  let invalidJson (reason : String) : Except Refusal α := .error (invalid ("Invalid JSON: " ++ reason))
  if !r.isJson then invalidJson "Expected request with `Content-Type: application/json`"
  else if r.overflows then invalidJson "Failed to buffer the request body: length limit exceeded"
  else
    match Json.decodeText d r.body with
    | .ok a => .ok a
    | .error .malformed => invalidJson "Failed to parse the request body as JSON"
    | .error f => invalidJson ("Failed to deserialize the JSON body into the target type: " ++ f.message)

end Request

/-! ### What is asked for -/

/-- An id and a secret, in exchange for a token. -/
structure Credentials where
  id : String
  secret : String

def credentialsShape : Json.Shape :=
  ⟨"TokenRequest", [Json.required "client_id" Json.string, Json.required "client_secret" Json.string]⟩

def Credentials.decode : Json.Decoder Credentials := fun n => do
  let found ← credentialsShape.scan .text n
  return ⟨Json.fieldOr found "client_id" Json.string "", Json.fieldOr found "client_secret" Json.string ""⟩

/-- A goal for the agent. -/
structure Errand where
  goal : String
  chainAction : String
  address : String

def errandShape : Json.Shape := ⟨"CreateTaskBody", [
  Json.required "goal" Json.string,
  Json.defaulted "chain_action" (Json.nullable Json.string),
  Json.defaulted "address" (Json.nullable Json.string)]⟩

def Errand.decode : Json.Decoder Errand := fun n => do
  let found ← errandShape.scan .text n
  let text? (name : String) : String := (Json.fieldOr found name (Json.nullable Json.string) none).getD ""
  return ⟨Json.fieldOr found "goal" Json.string "", text? "chain_action", text? "address"⟩

/-- The query of a listing: an id, or the number of latest tasks. -/
structure Listing where
  id : Option Int64 := none
  limit : Option Nat := none

/-- The default limit of a listing. -/
def defaultListLimit : Nat := 20

def maxListLimit : Nat := 100

/-- The limit of a listing. -/
def Listing.size (l : Listing) : Nat := min (max (l.limit.getD defaultListLimit) 1) maxListLimit

/-- Reads the parameters of a query; unknown ones are ignored. -/
def Listing.read (l : Listing) : List (String × String) → Except String Listing
  | [] => .ok l
  | (name, value) :: rest =>
    if name == "id" then
      if l.id.isSome then .error "duplicate field `id`"
      else
        match Decimal.integer value with
        | .ok id => Listing.read {l with id := some id} rest
        | .error f => .error ("id: " ++ f.message)
    else if name == "limit" then
      if l.limit.isSome then .error "duplicate field `limit`"
      else
        match Decimal.natural UInt64.size value with
        | .ok n => Listing.read {l with limit := some n} rest
        | .error f => .error ("limit: " ++ f.message)
    else Listing.read l rest

def Listing.ofQuery (query : String) : Except Refusal Listing :=
  (Listing.read {} (Http.Form.pairs query)).mapError fun m =>
    Request.invalid ("Failed to deserialize query string: " ++ m)

end ChainAgent.Gateway
