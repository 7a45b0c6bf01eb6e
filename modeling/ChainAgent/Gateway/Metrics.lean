import ChainAgent.Decimal.Notation
import ChainAgent.Time.Span

/-! Request counts, error counts and latencies of the routes. -/
namespace ChainAgent.Gateway

open Time (Span)

/-- The upper bounds of the latency buckets, in seconds. -/
def latencyBounds : List Float := [0.005, 0.01, 0.025, 0.05, 0.1, 0.25, 0.5, 1, 2.5, 10]

/-- The greatest count. -/
def countMax : Nat := UInt64.size - 1

/-- A saturating increment. -/
def countUp (n : Nat) : Nat := min (n + 1) countMax

structure RouteMetrics where
  requests : Nat
  errors : Nat
  /-- For each bound, the number of requests that took no longer. -/
  buckets : List Nat
  latencySum : Float

def RouteMetrics.none : RouteMetrics := ⟨0, 0, latencyBounds.map fun _ => 0, 0⟩

/-- A span in seconds. -/
def seconds (d : Span) : Float :=
  Float.ofNat d.secs + Float.ofNat (d.nanos % 1000000000) / 1000000000

/-- Whether a status counts as an error. -/
def isError (status : Nat) : Bool := 400 ≤ status && status < 600

def RouteMetrics.record (r : RouteMetrics) (status : Nat) (latency : Span) : RouteMetrics :=
  let secs := seconds latency
  { requests := countUp r.requests
    errors := if isError status then countUp r.errors else r.errors
    buckets := r.buckets.zipWith (fun n bound => if secs ≤ bound then countUp n else n) latencyBounds
    latencySum := r.latencySum + secs }

/-- The metrics of the routes, in the order of their names. -/
structure Metrics where
  routes : List (String × RouteMetrics)

namespace Metrics

def empty : Metrics := ⟨[]⟩

/-- Changes the entry of a route, which is created if it is missing. -/
def update (route : String) (f : RouteMetrics → RouteMetrics) :
    List (String × RouteMetrics) → List (String × RouteMetrics)
  | [] => [(route, f .none)]
  | (name, r) :: rest =>
    if route < name then (route, f .none) :: (name, r) :: rest
    else if route == name then (name, f r) :: rest
    else (name, r) :: update route f rest

/-- Counts a response. -/
def record (m : Metrics) (route : String) (status : Nat) (latency : Span) : Metrics :=
  ⟨update route (·.record status latency) m.routes⟩

/-- The numbers of requests and errors of a route. -/
def counts (m : Metrics) (route : String) : Option (Nat × Nat) :=
  (m.routes.find? (·.1 == route)).map fun (_, r) => (r.requests, r.errors)

/-! ### The exposition -/

def help (name text kind : String) : List String :=
  ["# HELP " ++ name ++ " " ++ text, "# TYPE " ++ name ++ " " ++ kind]

/-- A sample line of a route. -/
def sample (name route more value : String) : String :=
  name ++ "\x7broute=\"" ++ route ++ "\"" ++ more ++ "\x7d " ++ value

def durationLines (route : String) (r : RouteMetrics) : List String :=
  let name := "chainpilot_http_request_duration_seconds"
  let bucket (bound value : String) : String :=
    sample (name ++ "_bucket") route (",le=\"" ++ bound ++ "\"") value
  (latencyBounds.zip r.buckets).map (fun (b, n) => bucket (Decimal.bare.render b) (toString n)) ++ [
    bucket "+Inf" (toString r.requests),
    sample (name ++ "_sum") route "" (Decimal.bare.render r.latencySum),
    sample (name ++ "_count") route "" (toString r.requests)]

/-- All samples in the text exposition format. -/
def render (m : Metrics) : String :=
  let requests := "chainpilot_http_requests_total"
  let errors := "chainpilot_http_errors_total"
  let duration := "chainpilot_http_request_duration_seconds"
  let lines :=
    help requests "Requests handled, by route." "counter" ++
    m.routes.map (fun (route, r) => sample requests route "" (toString r.requests)) ++
    help errors "Requests answered with a 4xx or 5xx status, by route." "counter" ++
    m.routes.map (fun (route, r) => sample errors route "" (toString r.errors)) ++
    help duration "Handler latency, by route." "histogram" ++
    m.routes.flatMap fun (route, r) => durationLines route r
  String.join (lines.map (· ++ "\n"))

end Metrics

end ChainAgent.Gateway
