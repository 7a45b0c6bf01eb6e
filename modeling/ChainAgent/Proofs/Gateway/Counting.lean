import ChainAgent.Proofs.Gateway.Admission
import ChainAgent.Proofs.Gateway.Bookkeeping
import ChainAgent.Proofs.Gateway.Exposition

/-! The requests that the metrics count.

A route counts each of its responses once. But a request can be cut short before its handler has
answered: its declared length is above the limit (413), or its job times out (408). Such a response
is not counted (`serve_accounts`). So the metrics count the responses of a route that were not cut
short, and that is the number of all its responses exactly if none was (`metrics_tell`). -/
namespace ChainAgent.Gateway

open Time (Span Course Work)

/-! ### Answers that are cut short -/

/-- Whether a response is 413 or 408, in place of the handler's. -/
def Answer.cutsShort (a : Answer) : Bool := a.status == 413 || a.status == 408

theorem fitted_status (r : Request) (a : Answer) : (fitted r a).status = a.status := by
  unfold fitted
  split <;> rfl

theorem fitted_cutsShort (r : Request) (a : Answer) : (fitted r a).cutsShort = a.cutsShort := by
  rw [Answer.cutsShort, fitted_status, Answer.cutsShort]

/-- The status of a handler's result. -/
def statusOf : Except Refusal Answer → Nat
  | .ok a => a.status
  | .error f => f.status

theorem completed_status (route : Route) (requestId : String) (result : Except Refusal Answer) :
    (completed route requestId result).status = statusOf result := by
  cases result with
  | ok a => exact (completed_ok route requestId a).1
  | error f => exact (completed_error route requestId f).1

/-- The result of a handler is neither 413 nor 408. -/
def IsOwn (result : Except Refusal Answer) : Prop := statusOf result ≠ 413 ∧ statusOf result ≠ 408

theorem IsOwn.cutsShort {result : Except Refusal Answer} (h : IsOwn result) (route : Route)
    (requestId : String) : (completed route requestId result).cutsShort = false := by
  rw [Answer.cutsShort, completed_status, Bool.or_eq_false_iff]
  exact ⟨beq_eq_false_iff_ne.mpr h.1, beq_eq_false_iff_ne.mpr h.2⟩

theorem isOwn_of_status {result : Except Refusal Answer} (status : Nat)
    (h : statusOf result = status) (hown : status ≠ 413 ∧ status ≠ 408) : IsOwn result := by
  unfold IsOwn
  rwa [h]

/-! ### Receiving -/

/-- The possible receptions of a request. -/
inductive Reception.Takes (r : Request) : Reception → Prop
  | cutShort {a : Answer} : a.cutsShort = true → Takes r (.outside a)
  | elsewhere {a : Answer} : (∀ route, route ≠ .metrics → (routeOf r).toOption ≠ some route) →
      Takes r (.outside a)
  | answered {route : Route} {result : Except Refusal Answer} : (routeOf r).toOption = some route →
      IsOwn result → Takes r (.answered route result)
  | working {route : Route} (job : Job) : (routeOf r).toOption = some route →
      Takes r (.working route job)

section Receiving

variable {r : Request} {s : State}

theorem oversized_cutsShort (r : Request) : (oversized r).cutsShort = true := by
  unfold oversized
  cases routeOf r <;> rfl

theorem isOwn_decodeBody {α : Type} {d : Json.Decoder α} {f : Refusal}
    (h : r.decodeBody d = .error f) : IsOwn (.error f) :=
  isOwn_of_status 400 (Request.decodeBody_error h) (by decide)

theorem exchange_isOwn (now : Span) (token : String) (r : Request) (s : State) :
    IsOwn (exchange now token r s).1 := by
  unfold exchange
  cases hbody : r.decodeBody Credentials.decode with
  | error f => exact isOwn_decodeBody hbody
  | ok c =>
    dsimp only
    rcases (s.issuer.issue now token c.id c.secret).1 with (_ | n) | t
    · exact isOwn_of_status 401 rfl (by decide)
    · exact isOwn_of_status 429 rfl (by decide)
    · exact isOwn_of_status 200 rfl (by decide)

theorem exchange_metrics (now : Span) (token : String) (r : Request) (s : State) :
    (exchange now token r s).2.metrics = s.metrics := by
  unfold exchange
  split <;> rfl

theorem authorize_metrics (requireAuth : Bool) (now : Span) (r : Request) (s : State) :
    (authorize requireAuth now r s).2.metrics = s.metrics := by
  unfold authorize
  split <;> rfl

theorem jobOf_isOwn {route : Route} {f : Refusal} (h : jobOf route r = .error f) :
    IsOwn (.error f) := by
  unfold jobOf at h
  split at h
  · cases hbody : r.decodeBody Errand.decode with
    | error f' =>
      rw [hbody] at h
      cases h
      exact isOwn_decodeBody hbody
    | ok e =>
      rw [hbody] at h
      cases h
  · cases hquery : Listing.ofQuery r.query with
    | error f' =>
      rw [hquery] at h
      cases h
      unfold Listing.ofQuery at hquery
      cases hread : Listing.read {} (Http.Form.pairs r.query) with
      | error message =>
        rw [hread] at hquery
        cases hquery
        exact isOwn_of_status 400 rfl (by decide)
      | ok l =>
        rw [hread] at hquery
        cases hquery
    | ok l =>
      rw [hquery] at h
      cases h
  · cases h

theorem guarded_takes {route : Route} (hroute : (routeOf r).toOption = some route)
    {allowed : Except Refusal Unit} (h : allowed = .ok () ∨ allowed = .error unauthorized) :
    (guarded route (jobOf route r) allowed).Takes r := by
  obtain rfl | rfl := h
  · cases hjob : jobOf route r with
    | error f => exact .answered hroute (jobOf_isOwn hjob)
    | ok job => exact .working job hroute
  · exact .answered hroute (isOwn_of_status 401 rfl (by decide))

/-- A request is cut short, or is not for a counted route, or reaches its handler. -/
theorem receive_takes (storeName : String) (requireAuth : Bool) (now : Span) (token : String)
    (r : Request) (s : State) :
    (receive storeName requireAuth now token r s).1.Takes r ∧
      (receive storeName requireAuth now token r s).2.metrics = s.metrics := by
  unfold receive
  split
  · exact ⟨.cutShort (oversized_cutsShort r), rfl⟩
  · have hguarded {route : Route} (hroute : (routeOf r).toOption = some route) :=
      guarded_takes hroute (authorize_cases requireAuth now r s)
    rcases hroute : routeOf r with a | (_ | _ | _ | _ | _ | _)
    · exact ⟨.elsewhere (by simp [hroute, Except.toOption]), rfl⟩
    · exact ⟨.answered (by rw [hroute]; rfl) (isOwn_of_status 200 rfl (by decide)), rfl⟩
    · exact ⟨.elsewhere (by simp [hroute, Except.toOption, eq_comm]), rfl⟩
    · exact ⟨.answered (by rw [hroute]; rfl) (exchange_isOwn ..), exchange_metrics ..⟩
    · exact ⟨hguarded (by rw [hroute]; rfl), authorize_metrics ..⟩
    · exact ⟨hguarded (by rw [hroute]; rfl), authorize_metrics ..⟩
    · exact ⟨hguarded (by rw [hroute]; rfl), authorize_metrics ..⟩

end Receiving

/-! ### Jobs -/

section Jobs

variable {σ : Type} {g : Gateway (StateM σ)}

theorem isOwn_ofFailure (f : Agent.Failure) : IsOwn (.error (.ofFailure f)) := by
  have hstatus : failureStatus f ≠ 413 ∧ failureStatus f ≠ 408 := by
    unfold failureStatus
    split <;> decide
  exact isOwn_of_status (failureStatus f) rfl hstatus

/-- A ledger operation within its timeout is answered, or its failure is. -/
theorem reading_run {α : Type} (limit : Span) (answer : α → Answer)
    (work : StateM σ (Work (Except Ledger.Failure α))) (w : σ) :
    (reading limit answer work).run w =
      ((Agent.waited {abandonAt := some limit} ⟨0⟩ (work w).1).map fun (result, ended) =>
        (match result with
          | .ok a => .ok (answer a)
          | .error f => .error (.ofFailure (.storage f)), ended), (work w).2) := by
  have hawait := Agent.courseOutcome_await {abandonAt := some limit} work ⟨0⟩ w
  have hcourse (c : Course (StateM σ) (Except Refusal Answer)) :
      (Course.result ⟨0⟩ c).run w = Agent.courseOutcome c ⟨0⟩ w := rfl
  unfold reading
  rw [hcourse]
  simp only [Agent.courseOutcome, StateT.run_bind, OptionT.run_bind, Option.elimM] at hawait ⊢
  rw [hawait]
  cases Agent.waited {abandonAt := some limit} ⟨0⟩ (work w).1 <;> rfl

theorem reading_isOwn {α : Type} {answer : α → Answer} (hanswer : ∀ a, IsOwn (.ok (answer a)))
    {limit : Span} {work : StateM σ (Work (Except Ledger.Failure α))} {w left : σ}
    {result : Except Refusal Answer} {ended : Span}
    (h : (reading limit answer work).run w = (some (result, ended), left)) : IsOwn result := by
  rw [reading_run] at h
  obtain ⟨⟨r, ended'⟩, -, hanswered⟩ := Option.map_eq_some_iff.mp (congrArg Prod.fst h)
  cases r with
  | ok a =>
    cases hanswered
    exact hanswer a
  | error f =>
    cases hanswered
    exact isOwn_ofFailure _

theorem perform_isOwn {job : Job} {w left : σ} {result : Except Refusal Answer} {ended : Span}
    (h : (g.perform job).run w = (some (result, ended), left)) : IsOwn result := by
  cases job with
  | run e =>
    let ctx : Agent.Context :=
      {deadline := some g.requestTimeout, abandonAt := some (patience g.requestTimeout)}
    let run := (g.agent.run ctx e.goal e.chainAction e.address).run w
    have hrun : run.1.map _ = some (result, ended) := congrArg Prod.fst h
    obtain ⟨⟨r, ended'⟩, -, hanswer⟩ := Option.map_eq_some_iff.mp hrun
    cases r with
    | ok t =>
      cases hanswer
      exact isOwn_of_status 201 rfl (by decide)
    | error f =>
      cases hanswer
      exact isOwn_ofFailure f
  | get id => exact reading_isOwn (fun _ => isOwn_of_status 200 rfl (by decide)) h
  | list limit => exact reading_isOwn (fun _ => isOwn_of_status 200 rfl (by decide)) h
  | stats => exact reading_isOwn (fun _ => isOwn_of_status 200 rfl (by decide)) h

end Jobs

/-! ### One request -/

/-- The effect of a response on the metrics: it is counted for its route, unless it is cut short or
of no counted route. -/
inductive Accounts (m : Metrics) (r : Request) : Option Answer → Metrics → Prop
  | unanswered : Accounts m r none m
  | cutShort {a : Answer} : a.cutsShort = true → Accounts m r (some a) m
  | elsewhere {a : Answer} : (∀ route, route ≠ .metrics → (routeOf r).toOption ≠ some route) →
      Accounts m r (some a) m
  | counted {route : Route} {a : Answer} (latency : Span) : (routeOf r).toOption = some route →
      a.cutsShort = false → Accounts m r (some a) (m.record route.name a.status latency)

section Serving

variable {σ : Type} (g : Gateway (StateM σ)) (s : State) (r : Request) (w : σ)

/-- The response to a request. -/
def answerTo : Option Answer := ((g.serve s r).run w).1.1.map (·.1)

/-- The state of a gateway after a request. -/
def next : State := ((g.serve s r).run w).1.2

theorem answering_accounts {route : Route} (hroute : (routeOf r).toOption = some route)
    {result : Except Refusal Answer} (hown : IsOwn result) (ended : Span) (next : State) (left : σ) :
    let done := (g.answering r w route result ended next left).1
    Accounts next.metrics r (done.1.map (·.1)) done.2.metrics := by
  intro done
  have hcounted := fitted_cutsShort r (completed route (g.drawn w).requestId result)
  rw [hown.cutsShort] at hcounted
  have haccounts := Accounts.counted (m := next.metrics)
    ⟨(g.uptime left).1.nanos - (g.started w).nanos⟩ hroute hcounted
  rw [fitted_status] at haccounts
  exact haccounts

/-- **A request is counted once, unless it is cut short.** -/
theorem serve_accounts : Accounts s.metrics r (g.answerTo s r w) (g.next s r w).metrics := by
  obtain ⟨htakes, hmetrics⟩ : (g.received s r w).1.Takes r ∧
      (g.received s r w).2.metrics = s.metrics := receive_takes ..
  rcases hreceived : g.received s r w with ⟨reception, next⟩
  rw [hreceived] at htakes hmetrics
  rw [← hmetrics]
  unfold answerTo Gateway.next
  cases htakes with
  | cutShort hcut =>
    rw [serve_outside hreceived]
    exact .cutShort ((fitted_cutsShort r _).trans hcut)
  | elsewhere hroute =>
    rw [serve_outside hreceived]
    exact .elsewhere hroute
  | answered hroute hown =>
    rw [serve_answered hreceived]
    exact answering_accounts g r w hroute hown _ next _
  | working job hroute =>
    rw [serve_working hreceived]
    split
    · exact .unanswered
    · rcases hperform : (g.perform job).run (g.begun w) with ⟨_ | ⟨result, ended⟩, left⟩
      · exact .cutShort (fitted_cutsShort r .late)
      · exact answering_accounts g r w hroute (perform_isOwn hperform) ended next left

end Serving

/-! ### Tallies -/

theorem Route.isPlain_name (route : Route) : Metrics.IsPlain route.name := by
  cases route <;> exact ⟨by decide, by decide⟩

theorem Route.name_injective : Function.Injective Route.name := by
  intro a b h
  cases a <;> cases b <;> first | rfl | exact absurd h (by decide)

/-- How many responses are errors. -/
def errorsIn (answers : List Answer) : Nat := answers.countP fun a => isError a.status

/-- The metrics of a route are those of a list of responses, up to saturation. -/
def Metrics.Tallies (m : Metrics) (route : Route) (answers : List Answer) : Prop :=
  m.counts route.name =
    if answers = [] then none
    else some (min answers.length countMax, min (errorsIn answers) countMax)

theorem countUp_min (n : Nat) : countUp (min n countMax) = min (n + 1) countMax := by
  unfold countUp
  omega

section Tallies

variable {m m' : Metrics} {r : Request} {answer : Option Answer} {route : Route}
  {answers : List Answer}

theorem Metrics.Tallies.record (h : m.Tallies route answers) (htidy : m.IsTidy) (a : Answer)
    (latency : Span) : (m.record route.name a.status latency).Tallies route (answers ++ [a]) := by
  unfold Metrics.Tallies at h
  have hmore : answers ++ [a] ≠ [] := by simp
  have hcounts : (m.counts route.name).getD (0, 0) =
      (min answers.length countMax, min (errorsIn answers) countMax) := by
    rw [h]
    split
    · rename_i hnone
      rw [hnone]
      rfl
    · rfl
  have herrors : errorsIn (answers ++ [a]) =
      errorsIn answers + if isError a.status then 1 else 0 := by
    rw [errorsIn, List.countP_append, List.countP_singleton]
    rfl
  rw [Metrics.Tallies, htidy.counts_record, hcounts, if_neg hmore, herrors, List.length_append]
  dsimp only
  rw [countUp_min, countUp_min]
  cases isError a.status <;> rfl

/-- The responses of a route that are counted, with this one. -/
def countedOn (route : Route) (r : Request) (answer : Option Answer) : List Answer :=
  if (routeOf r).toOption = some route then answer.toList.filter (!·.cutsShort) else []

theorem Accounts.isTidy (h : Accounts m r answer m') (htidy : m.IsTidy) : m'.IsTidy := by
  cases h with
  | counted latency _ _ => exact htidy.record (Route.isPlain_name _) _ latency
  | _ => exact htidy

theorem Accounts.tallies (h : Accounts m r answer m') (htidy : m.IsTidy) (hroute : route ≠ .metrics)
    (htally : m.Tallies route answers) :
    m'.Tallies route (answers ++ countedOn route r answer) := by
  unfold countedOn
  cases h with
  | unanswered => simpa using htally
  | cutShort hcut => simpa [hcut] using htally
  | elsewhere hother => simpa [hother route hroute] using htally
  | @counted own a latency hown hcut =>
    rw [hown]
    by_cases hsame : own = route
    · subst hsame
      simpa [hcut] using htally.record htidy a latency
    · have hname : route.name ≠ own.name := fun heq => hsame (Route.name_injective heq).symm
      have hkept : (m.record own.name a.status latency).Tallies route answers := by
        rwa [Metrics.Tallies, Metrics.counts_record_of_ne hname]
      simpa [hsame] using hkept

end Tallies

/-! ### Many requests -/

/-- A request, and the state of the collaborators when it comes. -/
structure Visit (σ : Type) where
  request : Request
  world : σ

section Visits

variable {σ : Type} (g : Gateway (StateM σ))

/-- The state of a gateway after requests, one after the other. Between two requests anything may
happen to the state of the collaborators. -/
def afterAll (s : State) : List (Visit σ) → State
  | [] => s
  | v :: rest => afterAll (g.next s v.request v.world) rest

/-- The responses of a route to requests, one after the other. -/
def answersOn (route : Route) (s : State) : List (Visit σ) → List Answer
  | [] => []
  | v :: rest =>
    (if (routeOf v.request).toOption = some route then (g.answerTo s v.request v.world).toList
      else []) ++ answersOn route (g.next s v.request v.world) rest

/-- Visits without a pause. -/
def inTurn (s : State) (w : σ) : List Request → List (Visit σ)
  | [] => []
  | r :: rest => ⟨r, w⟩ :: inTurn (g.next s r w) ((g.serve s r).run w).2 rest

variable {route : Route}

/-- **The metrics count the responses that were not cut short.** -/
theorem afterAll_tallies (hroute : route ≠ .metrics) {s : State} (htidy : s.metrics.IsTidy)
    {answers : List Answer} (htally : s.metrics.Tallies route answers) (visits : List (Visit σ)) :
    (g.afterAll s visits).metrics.IsTidy ∧ (g.afterAll s visits).metrics.Tallies route
      (answers ++ (g.answersOn route s visits).filter (!·.cutsShort)) := by
  induction visits generalizing s answers with
  | nil => exact ⟨htidy, by simpa [answersOn, afterAll] using htally⟩
  | cons v rest ih =>
    have haccounts := g.serve_accounts s v.request v.world
    have hstep := haccounts.tallies htidy hroute htally
    obtain ⟨hafter, htally⟩ := ih (haccounts.isTidy htidy) hstep
    refine ⟨hafter, ?_⟩
    have hanswers : (g.answersOn route s (v :: rest)).filter (!·.cutsShort) =
        countedOn route v.request (g.answerTo s v.request v.world) ++
          (g.answersOn route (g.next s v.request v.world) rest).filter (!·.cutsShort) := by
      rw [answersOn, List.filter_append, countedOn]
      split <;> rfl
    rw [hanswers, ← List.append_assoc]
    exact htally

end Visits

/-! ### What the metrics tell -/

/-- An exposition has a number of a route under a name. A route without requests has no sample. -/
def Tells (text name : String) (route : Route) (n : Nat) : Prop :=
  Metrics.samples text name route.name = [Metrics.sample name route.name "" (toString n)] ∨
    n = 0 ∧ Metrics.samples text name route.name = []

theorem Tells.unique {text name : String} {route : Route} {a b : Nat} (ha : Tells text name route a)
    (hb : Tells text name route b) : a = b := by
  unfold Tells at ha hb
  obtain ha | ⟨ha, hnone⟩ := ha
  · rw [ha] at hb
    obtain hb | ⟨-, hnone⟩ := hb
    · have hchars := congrArg String.toList (List.singleton_inj.mp hb)
      have hdigits : Decimal.natDigits a = Decimal.natDigits b := by
        simpa [Metrics.sample_toList, Decimal.natDigits] using hchars
      rw [← Json.digitsValue_natDigits a, hdigits, Json.digitsValue_natDigits]
    · cases hnone
  · obtain hb | ⟨hb, -⟩ := hb
    · rw [hnone] at hb
      cases hb
    · rw [ha, hb]

theorem Metrics.Tallies.tells {m : Metrics} {route : Route} {answers : List Answer}
    (h : m.Tallies route answers) (htidy : m.IsTidy) :
    Tells m.render Metrics.requestsTotal route (min answers.length countMax) ∧
      Tells m.render Metrics.errorsTotal route (min (errorsIn answers) countMax) := by
  obtain ⟨hrequests, herrors⟩ := htidy.samples_render route.isPlain_name
  rw [h] at hrequests herrors
  unfold Tells
  rw [hrequests, herrors]
  by_cases hnone : answers = []
  · subst hnone
    exact ⟨.inr ⟨rfl, rfl⟩, .inr ⟨rfl, rfl⟩⟩
  · rw [if_neg hnone]
    exact ⟨.inl rfl, .inl rfl⟩

/-- A count is exact if and only if nothing is left out. -/
theorem Tells.iff_of_add {text name : String} {route : Route} {told left total : Nat}
    (h : Tells text name route (min told countMax)) (htotal : total = told + left)
    (hroom : total ≤ countMax) : Tells text name route total ↔ left = 0 := by
  have hmin : min told countMax = told := Nat.min_eq_left (by omega)
  rw [hmin] at h
  constructor
  · intro hall
    have hsame := h.unique hall
    omega
  · rintro rfl
    rwa [htotal]

/-- A count over all responses is the sum over those that are cut short and the others. -/
theorem countP_eq_add_cutShort {p : Answer → Bool} (hp : ∀ a, a.cutsShort = true → p a = true)
    (answers : List Answer) :
    answers.countP p =
      (answers.filter (!·.cutsShort)).countP p + answers.countP (·.cutsShort) := by
  have hall : ∀ a ∈ answers.filter (·.cutsShort), p a = true := fun a ha =>
    hp a (List.mem_filter.mp ha).2
  have hcut : (answers.filter (·.cutsShort)).countP p = answers.countP (·.cutsShort) := by
    rw [List.countP_eq_length.mpr hall, ← List.countP_eq_length_filter]
  rw [List.countP_eq_countP_filter_add answers p (·.cutsShort), hcut, Nat.add_comm]

theorem length_eq_add_cutShort (answers : List Answer) :
    answers.length = (answers.filter (!·.cutsShort)).length + answers.countP (·.cutsShort) := by
  simpa using countP_eq_add_cutShort (fun _ _ => rfl) answers

/-- A response that is cut short is an error. -/
theorem errorsIn_eq_add_cutShort (answers : List Answer) :
    errorsIn answers = errorsIn (answers.filter (!·.cutsShort)) + answers.countP (·.cutsShort) := by
  refine countP_eq_add_cutShort (fun a ha => ?_) answers
  rw [Answer.cutsShort, Bool.or_eq_true, beq_iff_eq, beq_iff_eq] at ha
  obtain hstatus | hstatus := ha <;> rw [hstatus] <;> decide

theorem serve_metrics {σ : Type} (g : Gateway (StateM σ)) (s : State) {r : Request}
    (hmethod : r.method = "GET") (hpath : r.path = "/metrics") (hlength : r.IsModest) (w : σ) :
    g.answerTo s r w = some (.exposition s.metrics.render) := by
  have hroute : routeOf r = .ok .metrics := by
    unfold routeOf
    rw [hmethod, hpath]
    rfl
  have hreceived : g.received s r w = (.outside (.exposition s.metrics.render), s) := by
    rw [received, receive, hlength.not_oversized, hroute]
    rfl
  rw [answerTo, serve_outside hreceived, fitted_of_ne (by rw [hmethod]; decide)]
  rfl

/-- **The metrics count every response but those that were cut short.** For any requests, whatever
the collaborators do and how long they take, the request and error counts of each route are those of
its own responses. They are the counts of all its responses exactly if no request for it declared a
length above the limit and none of its jobs timed out. -/
theorem metrics_tell {σ : Type} (g : Gateway (StateM σ)) (settings : Settings.Gateway)
    (visits : List (Visit σ)) {route : Route} (hroute : route ≠ .metrics) {r : Request}
    (hmethod : r.method = "GET") (hpath : r.path = "/metrics") (hlength : r.IsModest) (w : σ) :
    let answers := g.answersOn route (.initial settings) visits
    let own := answers.filter (!·.cutsShort)
    ∃ a, g.answerTo (g.afterAll (.initial settings) visits) r w = some a ∧ a.status = 200 ∧
      Tells a.body Metrics.requestsTotal route (min own.length countMax) ∧
      Tells a.body Metrics.errorsTotal route (min (errorsIn own) countMax) ∧
      (answers.length ≤ countMax →
        (Tells a.body Metrics.requestsTotal route answers.length ↔
          ∀ answer ∈ answers, answer.cutsShort = false) ∧
        (Tells a.body Metrics.errorsTotal route (errorsIn answers) ↔
          ∀ answer ∈ answers, answer.cutsShort = false)) := by
  intro answers own
  have hnone : (State.initial settings).metrics.Tallies route [] := rfl
  obtain ⟨htidy, htally⟩ := g.afterAll_tallies hroute Metrics.isTidy_empty hnone visits
  obtain ⟨hrequests, herrors⟩ := htally.tells htidy
  refine ⟨_, g.serve_metrics _ hmethod hpath hlength w, rfl, hrequests, herrors, fun hroom => ?_⟩
  have hcut : answers.countP (·.cutsShort) = 0 ↔ ∀ answer ∈ answers, answer.cutsShort = false := by
    simp [List.countP_eq_zero]
  have hroom' : errorsIn answers ≤ countMax := le_trans List.countP_le_length hroom
  rw [← hcut]
  exact ⟨hrequests.iff_of_add (length_eq_add_cutShort answers) hroom,
    herrors.iff_of_add (errorsIn_eq_add_cutShort answers) hroom'⟩

/-! ### In rehearsal -/

namespace Rehearsal

open Agent.Rehearsal (Stage)

/-- A request for a run whose declared length is above the limit. -/
def bulky : Request := {errand with headers := ("Content-Length", "70000") :: errand.headers}

/-- A request for a run without a goal. -/
def aimless : Request := {errand with body := ""}

/-- A gateway whose ledger takes longer than the timeout. -/
def sluggish : Gateway (StateM Stage) := unhurried (.ofSecs 36)

def rushHour : List (Visit Stage) :=
  sluggish.inTurn (.initial {}) Agent.Rehearsal.fresh [aimless, bulky, errand]

/-- Of three responses only the first is counted: the second is 413, and the third 408. -/
theorem metrics_tell_after_rush :
    (sluggish.answersOn .createTask (.initial {}) rushHour).map (·.status) = [400, 413, 408] ∧
    ∃ a, sluggish.answerTo (sluggish.afterAll (.initial {}) rushHour)
        ⟨"GET", "/metrics", [], ""⟩ Agent.Rehearsal.fresh = some a ∧
      Tells a.body Metrics.requestsTotal .createTask 1 ∧
      Tells a.body Metrics.errorsTotal .createTask 1 ∧
      ¬ Tells a.body Metrics.requestsTotal .createTask 3 := by
  let answers := sluggish.answersOn .createTask (.initial {}) rushHour
  have hstatuses : answers.map (·.status) = [400, 413, 408] := by decide +kernel
  have hown : (answers.filter (!·.cutsShort)).length = 1 ∧
      errorsIn (answers.filter (!·.cutsShort)) = 1 := by decide +kernel
  have hroute : Route.createTask ≠ .metrics := by decide
  have hmodest : Request.IsModest ⟨"GET", "/metrics", [], ""⟩ := nofun
  obtain ⟨a, hanswer, -, hrequests, herrors, -⟩ :=
    metrics_tell sluggish {} rushHour hroute rfl rfl hmodest Agent.Rehearsal.fresh
  rw [hown.1] at hrequests
  rw [hown.2] at herrors
  refine ⟨hstatuses, a, hanswer, hrequests, herrors, fun htold => ?_⟩
  exact absurd (hrequests.unique htold) (by decide)

end Rehearsal

end ChainAgent.Gateway
