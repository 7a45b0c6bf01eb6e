import ChainAgent.Http.Message

/-! Redirects.

The `Location` of a redirecting response is followed, up to a limit. After 301, 302 and 303 the
request becomes a GET without a body; after 307 and 308 it keeps its method and its body. The
`Authorization` header is dropped when the redirect leads to another host or port. -/
namespace ChainAgent.Http

/-- The most redirects that are followed for one request. -/
def redirectLimit : Nat := 10

/-- Whether two URLs have the same host and port. -/
def isSameServer (a b : Url) : Bool := a.host == b.host && a.portInUse == b.portInUse

/-- The request redirected to another URL, with its method and body or as a GET without a body. -/
def Request.redirected (r : Request) (keepsBody : Bool) (url : Url) : Request :=
  let authorization := if isSameServer r.url url then r.authorization else none
  if keepsBody then {r with url := url, authorization := authorization}
  else ⟨"GET", url, authorization, none, ""⟩

/-- Whether a status redirects, and if so whether the request keeps its method and body. -/
def redirect? : Nat → Option Bool
  | 301 => some false
  | 302 => some false
  | 303 => some false
  | 307 => some true
  | 308 => some true
  | _ => none

/-- The request that a response redirects to, if it redirects. -/
def Request.next? (r : Request) (response : Response) : Option Request := do
  let keepsBody ← redirect? response.status
  let url ← r.url.resolve? (← response.location)
  return r.redirected keepsBody {url with fragment := none}

/-- Sends a request and follows redirects, as many as the last argument says; `start` is the URL
of the first request. -/
def following {m : Type → Type} [Monad m] (send : Request → m (Option Response)) (start : Url) :
    Nat → Request → m (Except Fault Answer)
  | left, r => do
    match ← send r with
    | none => return .error (.unanswered start)
    | some response =>
      match r.next? response, left with
      | none, _ => return .ok ⟨r.url, response⟩
      | some _, 0 => return .error (.tooManyRedirects r.url)
      | some next, left + 1 =>
        if next.url.scheme == "http" || next.url.scheme == "https" then following send start left next
        else return .error (.unsupported next.url.text)

/-- The transport that sends single requests with `send` and follows redirects: one `exchange` of it
is a request with all of its redirects. -/
def Transport.ofSending {m : Type → Type} [Monad m] (send : Request → m (Option Response)) :
    Transport m where
  exchange := fun r => following send r.url redirectLimit r

end ChainAgent.Http
