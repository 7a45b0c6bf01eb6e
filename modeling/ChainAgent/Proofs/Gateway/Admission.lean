import ChainAgent.Gateway.Rehearsal
import ChainAgent.Proofs.Agent.Persisted
import ChainAgent.Proofs.Gateway.Issuing
import ChainAgent.Proofs.Gateway.Serving
import ChainAgent.Proofs.Json.RoundTrip
import ChainAgent.Proofs.Text.Blank

/-! Authorization.

The task routes need a token if the gateway requires authentication. A request without an accepted
token is refused before anything else of it is read (`receive_unauthorized`); so neither the agent
nor its ledger is called, and the response is the same whatever the request's query and body are,
and for any agent and ledger (`refused_without_token`). -/
namespace ChainAgent.Gateway

open Time (Span)

/-- The methods and paths of the task routes. -/
def taskTargets : List (String × String) :=
  [("POST", "/api/v1/tasks"), ("GET", "/api/v1/tasks"), ("GET", "/api/v1/tasks/stats")]

namespace Request

/-- The `Authorization` header of a request has a bearer token, up to whitespace. -/
def Shows (r : Request) (token : String) : Prop :=
  ∃ front back, Text.saysNothing front = true ∧ Text.saysNothing back = true ∧
    r.header? "authorization" = some ("Bearer " ++ (front ++ token ++ back))

/-- A request without an accepted token at an instant. -/
def LacksToken (r : Request) (i : Issuer) (now : Span) : Prop :=
  ∀ token, token ≠ "" → r.Shows token → ¬ i.Holds now token

/-- A request whose declared length is not above the limit. -/
def IsModest (r : Request) : Prop := ∀ n, r.declaredLength = some n → n ≤ 65536

variable {r : Request}

theorem IsModest.not_oversized (h : r.IsModest) : r.isOversized = false := by
  unfold isOversized
  cases hn : r.declaredLength with
  | none => rfl
  | some n =>
    exact decide_eq_false (Nat.not_lt.mpr (h n hn))

/-- The bearer token of a request is the one in its header. -/
theorem shows_bearerToken (h : r.bearerToken ≠ "") : r.Shows r.bearerToken := by
  unfold Shows
  unfold bearerToken at *
  cases hvalue : r.header? "authorization" with
  | none => simp [hvalue] at h
  | some value =>
    simp only [hvalue, Option.map_some] at h ⊢
    split at h
    · rename_i hscheme
      rw [if_pos hscheme]
      obtain ⟨rest, hrest⟩ := List.isPrefixOf_iff_prefix.mp hscheme
      obtain ⟨front, back, hfront, hback, hsplit⟩ := Text.trim_split (String.ofList rest)
      rw [← hrest, List.drop_left]
      refine ⟨front, back, hfront, hback, ?_⟩
      have hvalue : value = "Bearer " ++ String.ofList rest := by
        rw [← String.toList_inj, ← hrest]
        simp
      rw [← hsplit, hvalue]
    · exact absurd rfl h

/-- A request without an accepted token is not authorized. -/
theorem LacksToken.not_accepted {i : Issuer} {now : Span} (h : r.LacksToken i now) :
    (i.accepts now r.bearerToken).1 = false := by
  rw [← Bool.not_eq_true, i.accepts_iff]
  rintro ⟨hne, hholds⟩
  exact h _ hne (shows_bearerToken hne) hholds

end Request

section Reception

variable {r : Request} {s : State} {now : Span}

theorem routeOf_task (h : (r.method, r.path) ∈ taskTargets) :
    ∃ route, routeOf r = .ok route ∧ (route = .createTask ∨ route = .getTasks ∨ route = .taskStats) := by
  simp only [taskTargets, List.mem_cons, Prod.mk.injEq, List.not_mem_nil, or_false] at h
  unfold routeOf
  obtain ⟨hmethod, hpath⟩ | ⟨hmethod, hpath⟩ | ⟨hmethod, hpath⟩ := h
  · rw [hmethod, hpath]
    exact ⟨.createTask, rfl, .inl rfl⟩
  · rw [hmethod, hpath]
    exact ⟨.getTasks, rfl, .inr (.inl rfl)⟩
  · rw [hmethod, hpath]
    exact ⟨.taskStats, rfl, .inr (.inr rfl)⟩

/-- **A request without an accepted token is refused before anything else of it is read.** -/
theorem receive_unauthorized (htarget : (r.method, r.path) ∈ taskTargets) (hlength : r.IsModest)
    (htoken : r.LacksToken s.issuer now) (storeName token : String) :
    ∃ route next,
      receive storeName true now token r s = (.answered route (.error unauthorized), next) := by
  obtain ⟨route, hroute, htask⟩ := routeOf_task htarget
  have hauth : authorize true now r s =
      (.error unauthorized, {s with issuer := (s.issuer.accepts now r.bearerToken).2}) := by
    simp [authorize, htoken.not_accepted]
  rw [receive, hlength.not_oversized, hroute]
  obtain rfl | rfl | rfl := htask
  · exact ⟨.createTask, _, by simp only [hauth]; rfl⟩
  · exact ⟨.getTasks, _, by simp only [hauth]; rfl⟩
  · exact ⟨.taskStats, _, by simp only [hauth]; rfl⟩

end Reception

section Serving

variable {σ : Type} {g : Gateway (StateM σ)} {s : State} {r : Request} {w : σ}

theorem method_ne_head (htarget : (r.method, r.path) ∈ taskTargets) : r.method ≠ "HEAD" := by
  intro hhead
  rw [hhead] at htarget
  simp [taskTargets] at htarget

theorem serve_unauthorized (hauth : g.requireAuth = true)
    (htarget : (r.method, r.path) ∈ taskTargets) (hlength : r.IsModest)
    (htoken : r.LacksToken s.issuer (g.started w)) :
    ∃ a, ((g.serve s r).run w).1.1 = some (a, ⟨0⟩) ∧ a.status = 401 ∧
      a.body = (Answer.refusal unauthorized).body ∧
      ((g.serve s r).run w).2 = (g.uptime (g.begun w)).2 := by
  obtain ⟨route, next, hreceive⟩ :=
    receive_unauthorized htarget hlength htoken g.agent.ledger.name (g.drawn w).token
  rw [← hauth] at hreceive
  rw [serve_answered hreceive]
  obtain ⟨hstatus, hbody⟩ := completed_error route (g.drawn w).requestId unauthorized
  refine ⟨_, rfl, ?_⟩
  rw [fitted_of_ne (method_ne_head htarget)]
  exact ⟨hstatus, hbody, rfl⟩

end Serving

/-- **Without an accepted token a request to a task route is refused.** Neither the agent nor its
ledger is called: the gateway only reads the clock and draws a request id. Another gateway with the
same tokens gives the same response, for any agent and ledger, and whatever the request's query and
body are. -/
theorem refused_without_token {σ : Type} (g : Gateway (StateM σ)) (s : State) (r : Request) (w : σ)
    (hauth : g.requireAuth = true) (htarget : (r.method, r.path) ∈ taskTargets)
    (hlength : r.IsModest) (htoken : r.LacksToken s.issuer (g.started w)) :
    ∃ a, ((g.serve s r).run w).1.1 = some (a, ⟨0⟩) ∧ a.status = 401 ∧
      Json.readDocument a.body = (.object [(some "code", .text (some "unauthorized")),
        (some "message", .text (some unauthorized.message))], true) ∧
      ((g.serve s r).run w).2 = (g.uptime (g.fresh (g.uptime w).2).2).2 ∧
      ∀ {σ' : Type} (g' : Gateway (StateM σ')) (s' : State) (r' : Request) (w' : σ'),
        g'.requireAuth = true → s'.issuer = s.issuer → g'.started w' = g.started w →
        r'.method = r.method → r'.path = r.path → r'.headers = r.headers →
        ∃ a', ((g'.serve s' r').run w').1.1 = some (a', ⟨0⟩) ∧ a'.status = a.status ∧
          a'.body = a.body := by
  obtain ⟨a, hanswer, hstatus, hbody, hleft⟩ := serve_unauthorized hauth htarget hlength htoken
  refine ⟨a, hanswer, hstatus, ?_, hleft, ?_⟩
  · rw [hbody]
    exact Json.readDocument_compact (by simp [Json.Value.IsIntegral, Json.MembersIntegral])
  · intro σ' g' s' r' w' hauth' hissuer hstarted hmethod hpath hheaders
    have hheader (name : String) : r'.header? name = r.header? name := by
      rw [Request.header?, hheaders, Request.header?]
    have htarget' : (r'.method, r'.path) ∈ taskTargets := by rwa [hmethod, hpath]
    have hlength' : r'.IsModest := by
      unfold Request.IsModest Request.declaredLength at *
      rwa [hheader]
    have htoken' : r'.LacksToken s'.issuer (g'.started w') := by
      unfold Request.LacksToken Request.Shows at *
      rwa [hissuer, hstarted, hheader]
    obtain ⟨a', hanswer', hstatus', hbody', -⟩ :=
      serve_unauthorized hauth' htarget' hlength' htoken'
    exact ⟨a', hanswer', hstatus'.trans hstatus.symm, hbody'.trans hbody.symm⟩

/-- A token with a lifetime of ten seconds is refused when they are over. -/
theorem refused_after_ten_seconds :
    let i := ((Issuer.create [⟨"agent", "secret"⟩] 10).issue (.ofSecs 1) "cp_07" "agent" "secret").2
    let g := Rehearsal.gateway
      (Agent.Rehearsal.terse ⟨.echo, some ⟨1⟩, ⟨8⟩⟩ (.error .notConfigured)) true (.ofSecs 30)
    let r : Request := ⟨"POST", "/api/v1/tasks", [("Authorization", "Bearer cp_07")], "goal"⟩
    let w := {Agent.Rehearsal.fresh with uptime := .ofSecs 11}
    ∃ a, ((g.serve ⟨i, .empty⟩ r).run w).1.1 = some (a, ⟨0⟩) ∧ a.status = 401 ∧
      ((g.serve ⟨i, .empty⟩ r).run w).2 = {w with draws := 1} := by
  intro i g r w
  have htoken : r.LacksToken i (g.started w) := by
    rintro token - - ⟨t, hmem, hlive⟩
    have hissued : i.issued = [(Digest.ofText "cp_07", .ofSecs 1)] := rfl
    rw [hissued, List.mem_singleton] at hmem
    obtain ⟨-, rfl⟩ := Prod.mk.inj hmem
    exact absurd hlive (by decide)
  have hlength : r.IsModest := by
    intro n hn
    have hnone : r.declaredLength = none := by decide
    rw [hnone] at hn
    cases hn
  obtain ⟨a, hanswer, hstatus, -, hleft, -⟩ :=
    refused_without_token g ⟨i, .empty⟩ r w rfl (by decide) hlength htoken
  exact ⟨a, hanswer, hstatus, hleft⟩

end ChainAgent.Gateway
