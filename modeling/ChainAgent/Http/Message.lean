import ChainAgent.Url.Address
import ChainAgent.Json.Printer

/-! HTTP requests to a peer and its responses.

A `Transport` performs the exchange of a request for the final response, redirects included. What it
does is not fixed here: it may answer anything, and it may fail to answer at all. -/
namespace ChainAgent.Http

structure Request where
  method : String
  url : Url
  authorization : Option String
  contentType : Option String
  body : String

structure Response where
  status : Nat
  body : ByteArray
  /-- The `Location` header as it is written. -/
  location : Option String := none

/-- Why there is no response. -/
inductive Fault where
  /-- The address is no URL, or a header has a character that no header may have. -/
  | unbuildable
  /-- The scheme of the URL is neither http nor https. -/
  | unsupported (address : String)
  | unanswered (url : Url)
  | tooManyRedirects (url : Url)

def Fault.message : Fault → String
  | .unbuildable => "builder error"
  | .unsupported address => "builder error for url (" ++ address ++ ")"
  | .unanswered url => "error sending request for url (" ++ url.text ++ ")"
  | .tooManyRedirects url => "error following redirect for url (" ++ url.text ++ ")"

/-- The error message for a response body that does not decode. -/
def undecodableBody (url : Url) : String :=
  "error decoding response body for url (" ++ url.text ++ ")"

def Response.isSuccess (r : Response) : Bool := 200 ≤ r.status && r.status < 300

/-- The body decoded as UTF-8, with replacement characters for what is malformed. -/
def Response.text (r : Response) : String := Text.decodeLossy r.body

/-- The body decoded as UTF-8, or none where it is malformed. -/
def Response.strictText (r : Response) : Option String := Text.decode r.body

/-- Whether a text may be the value of a header. -/
def isHeaderText (s : String) : Bool :=
  s.toUTF8.toList.all fun b => (32 ≤ b && b != 127) || b == 9

/-- The final response to a request, with the URL that it came from after all redirects. -/
structure Answer where
  url : Url
  response : Response

/-- An HTTP client in a monad. One `exchange` is one request and its final response: redirects are
followed inside it. -/
structure Transport (m : Type → Type) where
  exchange : Request → m (Except Fault Answer)

variable {m : Type → Type} [Monad m]

/-- Posts a JSON value; the user name and password in the URL are not sent. -/
def post (t : Transport m) (address : String) (authorization : Option String)
    (body : Json.Value) : m (Except Fault Answer) :=
  match Url.parse address with
  | .error _ => return .error .unbuildable
  | .ok (_, none) => return .error (.unsupported address)
  | .ok (scheme, some url) =>
    let url := {url with userinfo := none}
    if authorization.any (!isHeaderText ·) then return .error .unbuildable
    else if scheme != "http" && scheme != "https" then return .error (.unsupported url.text)
    else
      t.exchange
        { method := "POST", url := url, authorization := authorization
          contentType := some "application/json", body := Json.compact body }

end ChainAgent.Http
