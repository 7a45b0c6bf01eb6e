import ChainAgent.Agent.Run
import ChainAgent.Gateway.Answer
import ChainAgent.Gateway.Metrics
import ChainAgent.Gateway.Request
import ChainAgent.Gateway.Tokens

/-! The gateway: the agent behind HTTP.

A request passes three stages. Whatever needs neither the agent nor its ledger is answered at once;
the rest is a job, which takes time and is dropped after the request timeout and a margin; and a
response that comes in time is counted. -/
namespace ChainAgent

open Time (Span Course)

namespace Gateway

inductive Route where
  | health
  | metrics
  | authToken
  | createTask
  | getTasks
  | taskStats
deriving DecidableEq

/-- The route's name in the metrics. -/
def Route.name : Route → String
  | .health => "health"
  | .metrics => "metrics"
  | .authToken => "auth_token"
  | .createTask => "create_task"
  | .getTasks => "get_tasks"
  | .taskStats => "task_stats"

/-- The routes at a path by their methods, the methods in the order of `Allow`. -/
def routesAt : String → List (String × Route)
  | "/health" => [("GET", .health)]
  | "/metrics" => [("GET", .metrics)]
  | "/api/v1/auth/token" => [("POST", .authToken)]
  | "/api/v1/tasks" => [("POST", .createTask), ("GET", .getTasks)]
  | "/api/v1/tasks/stats" => [("GET", .taskStats)]
  | _ => []

/-- The methods at a path; GET allows HEAD. -/
def allowed (routes : List (String × Route)) : String :=
  ",".intercalate (routes.flatMap fun (method, _) =>
    if method == "GET" then ["GET", "HEAD"] else [method])

/-- The route of a method at a path, or the 404 or 405 response. -/
def routeOf (r : Request) : Except Answer Route :=
  let routes := routesAt r.path
  let method := if r.method == "HEAD" then "GET" else r.method
  match routes.find? (·.1 == method) with
  | some (_, route) => .ok route
  | none => .error (if routes.isEmpty then .missing else .notAllowed (allowed routes))

/-- The response to a request whose declared length is above the limit; where its method has no
route it has an `Allow` header all the same. -/
def oversized (r : Request) : Answer :=
  match routeOf r with
  | .ok _ => .tooLarge
  | .error a => {Answer.tooLarge with allow := a.allow}

/-- A request to the agent or its ledger. -/
inductive Job where
  | run (e : Errand)
  | get (id : Int64)
  | list (limit : Nat)
  | stats

/-- Whether a job is a run of the agent. -/
def Job.isRun : Job → Bool
  | .run _ => true
  | _ => false

/-- The state that requests change. -/
structure State where
  issuer : Issuer
  metrics : Metrics

/-- The random bytes drawn for a request. -/
structure Fresh where
  requestId : String
  token : String

end Gateway

/-- A gateway: its agent, its settings and its sources of time and randomness. -/
structure Gateway (m : Type → Type) where
  agent : Agent m
  requireAuth : Bool
  requestTimeout : Span
  /-- The monotonic clock. -/
  uptime : m Span
  fresh : m Gateway.Fresh

namespace Gateway

/-- How much longer than the request timeout a job may take. -/
def margin : Span := .ofSecs 5

/-- The timeout of every job. -/
def patience (requestTimeout : Span) : Span := requestTimeout + margin

/-- Durations have fewer seconds than this. -/
def spanBound : Nat := UInt64.size

/-- Instants have fewer seconds than this. -/
def instantBound : Nat := Decimal.integerBound

/-- Whether the timeout of a job is a representable duration. -/
def isPatient (requestTimeout : Span) : Bool := (patience requestTimeout).secs < spanBound

/-- The deadline of a run that begins now, if it is a representable instant. -/
def deadlineOf (now requestTimeout : Span) : Option Span :=
  let deadline := now + requestTimeout
  if deadline.secs < instantBound then some deadline else none

/-- The initial state of a gateway. -/
def State.initial (s : Settings.Gateway) : State := ⟨.create s.clients s.tokenTtlSecs, .empty⟩

def unauthorized : Refusal :=
  ⟨401, "unauthorized", "Missing or invalid bearer token. Obtain one from POST /api/v1/auth/token"⟩

/-- Refuses a request without an accepted token, if authentication is required. -/
def authorize (requireAuth : Bool) (now : Span) (r : Request) (s : State) :
    Except Refusal Unit × State :=
  if !requireAuth then (.ok (), s)
  else
    let (isGood, issuer) := s.issuer.accepts now r.bearerToken
    (if isGood then .ok () else .error unauthorized, {s with issuer := issuer})

/-- Exchanges an id and a secret for a token. -/
def exchange (now : Span) (token : String) (r : Request) (s : State) :
    Except Refusal Answer × State :=
  match r.decodeBody Credentials.decode with
  | .error f => (.error f, s)
  | .ok c =>
    let (result, issuer) := s.issuer.issue now token c.id c.secret
    let answer := match result with
      | .ok _ => .ok (.token token issuer.lifetime.secs)
      | .error .invalidCredentials =>
        .error ⟨401, "invalid_credentials", "Invalid client credentials"⟩
      | .error (.lockedOut n) => .ok (.lockedOut n)
    (answer, {s with issuer := issuer})

/-- A request before its job is done. -/
inductive Reception where
  /-- A response outside the routes. -/
  | outside (a : Answer)
  /-- The response of a route. -/
  | answered (route : Route) (a : Except Refusal Answer)
  | working (route : Route) (j : Job)

/-- The reception of a request that needs authorization. -/
def guarded (route : Route) (job : Except Refusal Job) (allowed : Except Refusal Unit) : Reception :=
  match allowed, job with
  | .error f, _ => .answered route (.error f)
  | .ok _, .error f => .answered route (.error f)
  | .ok _, .ok j => .working route j

/-- The job of a request to the tasks. -/
def jobOf (route : Route) (r : Request) : Except Refusal Job :=
  match route with
  | .createTask => (r.decodeBody Errand.decode).map .run
  | .getTasks => (Listing.ofQuery r.query).map fun l =>
      match l.id with
      | some id => .get id
      | none => .list l.size
  | _ => .ok .stats

/-- The reception of a request. -/
def receive (storeName : String) (requireAuth : Bool) (now : Span) (token : String)
    (r : Request) (s : State) : Reception × State :=
  if r.isOversized then (.outside (oversized r), s)
  else
    match routeOf r with
    | .error a => (.outside a, s)
    | .ok .health => (.answered .health (.ok (.health storeName requireAuth)), s)
    | .ok .metrics => (.outside (.exposition s.metrics.render), s)
    | .ok .authToken =>
      let (a, s) := exchange now token r s
      (.answered .authToken a, s)
    | .ok route =>
      let (allowed, s) := authorize requireAuth now r s
      (guarded route (jobOf route r) allowed, s)

variable {m : Type → Type} [Monad m]

/-- The response to a ledger operation under a timeout. -/
def reading {α : Type} (limit : Span) (answer : α → Answer)
    (work : m (Time.Work (Except Ledger.Failure α))) :
    m (Option (Except Refusal Answer × Span)) :=
  Course.result ⟨0⟩ do
    let result ← Course.await (some limit) work
    return match result with
      | .ok a => .ok (answer a)
      | .error f => .error (.ofFailure (.storage f))

/-- Does a job: its response and when it comes; none if it times out. -/
def perform (g : Gateway m) : Job → m (Option (Except Refusal Answer × Span))
  | .run e => do
    let ctx : Agent.Context :=
      {deadline := some g.requestTimeout, abandonAt := some (patience g.requestTimeout)}
    let result ← g.agent.run ctx e.goal e.chainAction e.address
    return result.map fun (r, ended) =>
      (match r with
        | .ok t => .ok (.created t)
        | .error f => .error (.ofFailure f), ended)
  | .get id => reading (patience g.requestTimeout) .task (g.agent.ledger.get id)
  | .list limit => reading (patience g.requestTimeout) .tasks (g.agent.ledger.recent limit)
  | .stats =>
    reading (patience g.requestTimeout) (.stats g.agent.ledger.name) g.agent.ledger.stats

/-- The response of a route, with the id of its request unless the route has none. -/
def completed (route : Route) (requestId : String) (a : Except Refusal Answer) : Answer :=
  let a := match a with
    | .ok a => a
    | .error f => .refusal f
  if route == .health then a else {a with requestId := some requestId}

/-- Counts the response of a route. -/
def counted (s : State) (route : Route) (a : Answer) (latency : Span) : State :=
  {s with metrics := s.metrics.record route.name a.status latency}

/-- The response as the method of its request gets it. -/
def fitted (r : Request) (a : Answer) : Answer := if r.method == "HEAD" then a.headersOnly else a

/-- Serves a request: its response and the time it took; none if the deadline of its run is not a
representable instant. -/
def serve (g : Gateway m) (s : State) (r : Request) : m (Option (Answer × Span) × State) := do
  let started ← g.uptime
  let fresh ← g.fresh
  match receive g.agent.ledger.name g.requireAuth started fresh.token r s with
  | (.outside a, s) => return (some (fitted r a, ⟨0⟩), s)
  | (.answered route result, s) =>
    let a := completed route fresh.requestId result
    let latency : Span := ⟨(← g.uptime).nanos - started.nanos⟩
    return (some (fitted r a, ⟨0⟩), counted s route a latency)
  | (.working route job, s) =>
    if job.isRun && (deadlineOf started g.requestTimeout).isNone then return (none, s)
    match ← g.perform job with
    | none => return (some (fitted r .late, patience g.requestTimeout), s)
    | some (result, ended) =>
      let a := completed route fresh.requestId result
      let latency : Span := ⟨(← g.uptime).nanos - started.nanos⟩
      return (some (fitted r a, ended), counted s route a latency)

end Gateway

end ChainAgent
