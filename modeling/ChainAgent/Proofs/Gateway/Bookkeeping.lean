import ChainAgent.Gateway.Rehearsal
import ChainAgent.Proofs.Agent.Persisted
import ChainAgent.Proofs.Gateway.Serving
import ChainAgent.Proofs.Task.Record

/-! Responses to new tasks and the ledger.

A request for a run is answered with 201 exactly if there is a new task: error responses come before
the agent is called (`receive_create`), and a timeout drops the run before it stored anything
(`perform_run`). So the response and the ledger agree (`serve_agrees`). -/
namespace ChainAgent.Gateway

open Time (Span)
open Ledger (Store)

/-- The agent of a gateway stores its tasks in a ledger, which neither the clock nor the random
source changes. -/
structure StoresIn {σ : Type} (g : Gateway (StateM σ)) (store : σ → Store) : Prop where
  agent : g.agent.StoresIn store
  uptime : ∀ w, store (g.uptime w).2 = store w
  fresh : ∀ w, store (g.fresh w).2 = store w

/-! ### Statuses -/

/-- The body of the response to a new task has all of its fields. -/
theorem readDocument_created (t : Task) :
    Json.readDocument (Answer.created t).body = (.object [
      (some "id", .number (some (.ofInt t.id.toInt))),
      (some "reply", .text (some t.reply)),
      (some "observations", .text (some t.observations)),
      (some "chain_id", .text (some t.chainId)),
      (some "block_number", .text (some t.blockNumber)),
      (some "created_at", .number (some (.ofInt t.createdAt.toInt)))], true) := by
  refine Json.readDocument_compact ?_
  simp only [Json.Value.IsIntegral, Json.MembersIntegral, Json.Value.ofInt, and_true, true_and]
  exact ⟨⟨_, Task.isWord_toInt t.id, rfl⟩, ⟨_, Task.isWord_toInt t.createdAt, rfl⟩⟩

theorem failureStatus_ne (f : Agent.Failure) : failureStatus f ≠ 201 := by
  unfold failureStatus
  split <;> decide

theorem Request.decodeBody_error {α : Type} {r : Request} {d : Json.Decoder α} {f : Refusal}
    (h : r.decodeBody d = .error f) : f.status = 400 := by
  unfold decodeBody at h
  split at h
  · cases h
    rfl
  · split at h
    · cases h
      rfl
    · split at h <;> cases h <;> rfl

theorem authorize_cases (requireAuth : Bool) (now : Span) (r : Request) (s : State) :
    (authorize requireAuth now r s).1 = .ok () ∨
      (authorize requireAuth now r s).1 = .error unauthorized := by
  unfold authorize
  split
  · exact .inl rfl
  · by_cases hgood : (s.issuer.accepts now r.bearerToken).1 = true
    · exact .inl (if_pos hgood)
    · exact .inr (if_neg hgood)

/-! ### Requests for a run -/

/-- The possible receptions of a request for a run. -/
inductive Reception.OfRun : Reception → Prop
  | outside {a : Answer} : a.status ≠ 201 → OfRun (.outside a)
  | refused {f : Refusal} : f.status ≠ 201 → OfRun (.answered .createTask (.error f))
  | job (e : Errand) : OfRun (.working .createTask (.run e))

section Creating

variable {r : Request}

theorem guarded_ofRun {allowed : Except Refusal Unit}
    (h : allowed = .ok () ∨ allowed = .error unauthorized) :
    (guarded .createTask (jobOf .createTask r) allowed).OfRun := by
  obtain rfl | rfl := h
  · unfold jobOf
    cases hbody : r.decodeBody Errand.decode with
    | error f =>
      have hstatus := Request.decodeBody_error hbody
      exact .refused (by omega)
    | ok e => exact .job e
  · exact .refused (by decide)

theorem receive_ofRun (hmethod : r.method = "POST") (hpath : r.path = "/api/v1/tasks")
    (storeName : String) (requireAuth : Bool) (now : Span) (token : String) (s : State) :
    (receive storeName requireAuth now token r s).1.OfRun := by
  have hroute : routeOf r = .ok .createTask := by
    unfold routeOf
    rw [hmethod, hpath]
    rfl
  unfold receive
  split
  · apply Reception.OfRun.outside
    rw [oversized, hroute]
    decide
  · rw [hroute]
    exact guarded_ofRun (authorize_cases requireAuth now r s)

end Creating

/-! ### Answers and ledgers -/

/-- A response agrees with the change of a ledger: it is 201 with the one new task, or there is no
new task and it is not 201. -/
inductive Agrees (before after : Store) : Option (Answer × Span) → Prop
  | stored {d : Task.Draft} {t : Task} {a : Answer} {ended : Span} : before.Grown d t after →
    a.status = 201 → a.body = (Answer.created t).body → Agrees before after (some (a, ended))
  | kept {answer : Option (Answer × Span)} : after = before →
    (∀ a ended, answer = some (a, ended) → a.status ≠ 201) → Agrees before after answer

theorem Agrees.refused {before after : Store} (hsame : after = before) {a : Answer}
    (hstatus : a.status ≠ 201) (ended : Span) : Agrees before after (some (a, ended)) := by
  refine .kept hsame ?_
  rintro _ _ ⟨⟩
  exact hstatus

section Serving

variable {σ : Type} {g : Gateway (StateM σ)} {store : σ → Store}

/-- **A run for a request stores the task of its response, or nothing.** -/
theorem StoresIn.perform_run (h : g.StoresIn store) (e : Errand) (w : σ) :
    let done := (g.perform (.run e)).run w
    (store done.2 = store w ∧ (done.1 = none ∨
        ∃ f ended, done.1 = some (.error f, ended) ∧ f.status ≠ 201)) ∨
      ∃ d t ended, done.1 = some (.ok (.created t), ended) ∧ (store w).Grown d t (store done.2) := by
  intro done
  let ctx : Agent.Context :=
    {deadline := some g.requestTimeout, abandonAt := some (patience g.requestTimeout)}
  let run := (g.agent.run ctx e.goal e.chainAction e.address).run w
  obtain ⟨answering, hdone, hok, herror⟩ : ∃ answering, done = (run.1.map answering, run.2) ∧
      (∀ t ended, answering (.ok t, ended) = (.ok (.created t), ended)) ∧
      ∀ f ended, answering (.error f, ended) = (.error (.ofFailure f), ended) :=
    ⟨_, rfl, fun _ _ => rfl, fun _ _ => rfl⟩
  obtain ⟨hsame, hnone⟩ | ⟨d, t, ended, hend, hgrown, -⟩ :=
    h.agent.run_stores ctx e.goal e.chainAction e.address w
  · have hsame : store run.2 = store w := hsame
    have hnone : ∀ t ended, run.1 ≠ some (.ok t, ended) := hnone
    rw [hdone]
    rcases run with ⟨_ | ⟨f | t, ended⟩, left⟩
    · exact .inl ⟨hsame, .inl rfl⟩
    · refine .inl ⟨hsame, .inr ⟨.ofFailure f, ended, ?_, failureStatus_ne f⟩⟩
      rw [Option.map_some, herror]
    · exact absurd rfl (hnone t ended)
  · have hend : run.1 = some (.ok t, ended) := hend
    rw [hdone, hend, Option.map_some, hok]
    exact .inr ⟨d, t, ended, rfl, hgrown⟩

theorem StoresIn.begun (h : g.StoresIn store) (w : σ) : store (g.begun w) = store w := by
  rw [Gateway.begun, h.fresh, h.uptime]

/-- **The response to a request for a run agrees with the ledger.** -/
theorem StoresIn.serve_agrees (h : g.StoresIn store) {r : Request} (hmethod : r.method = "POST")
    (hpath : r.path = "/api/v1/tasks") (s : State) (w : σ) :
    Agrees (store w) (store ((g.serve s r).run w).2) ((g.serve s r).run w).1.1 := by
  have hfitted := fitted_of_ne (r := r) (by rw [hmethod]; decide)
  have hreception : (g.received s r w).1.OfRun := receive_ofRun hmethod hpath ..
  rcases hreceived : g.received s r w with ⟨reception, next⟩
  rw [hreceived] at hreception
  cases hreception with
  | outside hstatus =>
    rw [serve_outside hreceived, hfitted]
    exact .refused (h.begun w) hstatus _
  | refused hstatus =>
    rw [serve_answered hreceived]
    refine .refused ((h.uptime _).trans (h.begun w)) ?_ _
    rw [hfitted, (completed_error ..).1]
    exact hstatus
  | job e =>
    rw [serve_working hreceived]
    split
    · -- A run that could not have an end is not begun.
      exact .kept (h.begun w) nofun
    · have hperform := h.perform_run e (g.begun w)
      rw [← h.begun w]
      generalize (g.perform (.run e)).run (g.begun w) = performed at hperform ⊢
      obtain ⟨done, left⟩ := performed
      obtain ⟨hsame, rfl | ⟨f, ended, rfl, hstatus⟩⟩ | ⟨d, t, ended, rfl, hgrown⟩ := hperform
      · refine .refused hsame ?_ _
        rw [hfitted]
        decide
      · refine .refused ((h.uptime left).trans hsame) ?_ _
        rw [hfitted, (completed_error ..).1]
        exact hstatus
      · obtain ⟨hstatus, hbody⟩ := completed_ok .createTask (g.drawn w).requestId (.created t)
        have hgrown : (store (g.begun w)).Grown d t (store (g.uptime left).2) := by
          rw [h.uptime]
          exact hgrown
        refine .stored hgrown ?_ ?_
        · rw [hfitted]
          exact hstatus
        · rw [hfitted]
          exact hbody

end Serving

/-- **The response to a request for a run is 201 exactly if the ledger has one task more, and it has
that task.** This holds for any request, whatever the agent's collaborators do and how long they
take, and for any request timeout: any other response, or none, leaves the ledger as it is. -/
theorem created_iff_stored {σ : Type} {g : Gateway (StateM σ)} {store : σ → Store}
    (hstores : g.StoresIn store) (s : State) (r : Request) (w : σ) (hmethod : r.method = "POST")
    (hpath : r.path = "/api/v1/tasks") :
    let answer := ((g.serve s r).run w).1.1
    let before := store w
    let after := store ((g.serve s r).run w).2
    ((∃ a ended, answer = some (a, ended) ∧ a.status = 201) ↔
      after.tasks.length = before.tasks.length + 1) ∧
    (∀ a ended, answer = some (a, ended) → a.status = 201 →
      ∃ t, after.tasks = before.tasks ++ [t] ∧
        Json.readDocument a.body = (.object [
          (some "id", .number (some (.ofInt t.id.toInt))),
          (some "reply", .text (some t.reply)),
          (some "observations", .text (some t.observations)),
          (some "chain_id", .text (some t.chainId)),
          (some "block_number", .text (some t.blockNumber)),
          (some "created_at", .number (some (.ofInt t.createdAt.toInt)))], true)) ∧
    ((∀ a ended, answer = some (a, ended) → a.status ≠ 201) → after = before) := by
  intro answer before after
  have hagrees : Agrees before after answer := hstores.serve_agrees hmethod hpath s w
  clear_value answer before after
  cases hagrees with
  | @stored d t a ended hgrown hstatus hbody =>
    refine ⟨⟨fun _ => ?_, fun _ => ⟨a, ended, rfl, hstatus⟩⟩, ?_, fun hnone => ?_⟩
    · rw [hgrown.tasks, List.length_append, List.length_singleton]
    · rintro _ _ ⟨⟩ -
      refine ⟨t, hgrown.tasks, ?_⟩
      rw [hbody]
      exact readDocument_created t
    · exact absurd hstatus (hnone a ended rfl)
  | kept hsame hnone =>
    subst hsame
    refine ⟨⟨?_, fun hmore => ?_⟩, fun a ended hanswer hcreated => ?_, fun _ => rfl⟩
    · rintro ⟨a, ended, hanswer, hcreated⟩
      exact absurd hcreated (hnone a ended hanswer)
    · omega
    · exact absurd hcreated (hnone a ended hanswer)

/-! ### In rehearsal -/

namespace Rehearsal

open Agent.Rehearsal (Stage terse)

theorem gateway_storesIn (c : Agent.Rehearsal.Cast) (requireAuth : Bool) (requestTimeout : Span)
    (hknowledge : ∀ goal action stage,
      (c.knowledge.lookup goal action stage).2.store = stage.store) :
    (gateway c requireAuth requestTimeout).StoresIn Stage.store where
  agent := Agent.Rehearsal.agent_storesIn c hknowledge
  uptime := fun _ => rfl
  fresh := fun _ => rfl

/-- A gateway with a request timeout of thirty seconds, and a ledger with a delay. -/
def unhurried (takes : Span) : Gateway (StateM Stage) :=
  gateway {terse ⟨.echo, some ⟨1⟩, ⟨8⟩⟩ (.error .notConfigured) with writing := ⟨some takes, none⟩}
    false (.ofSecs 30)

def errand : Request :=
  ⟨"POST", "/api/v1/tasks", [("Content-Type", "application/json")], "\x7b\"goal\":\"go\"\x7d"⟩

def served (takes : Span) : (Option (Answer × Span) × State) × Stage :=
  ((unhurried takes).serve ⟨.create [] 10, .empty⟩ errand).run Agent.Rehearsal.fresh

/-- A write after the timeout and its margin is not made; an earlier one is answered with 201. -/
theorem created_before_margin :
    ((served (.ofSecs 34)).1.1.map (·.1.status) = some 201 ∧
      (served (.ofSecs 34)).2.store.tasks.length = Agent.Rehearsal.fresh.store.tasks.length + 1) ∧
    (served (.ofSecs 36)).1.1.map (·.1.status) = some 408 ∧
      (served (.ofSecs 36)).2.store = Agent.Rehearsal.fresh.store := by
  have hstores (takes : Span) : (unhurried takes).StoresIn Stage.store :=
    gateway_storesIn _ _ _ fun _ _ _ => rfl
  have hsooner : (served (.ofSecs 34)).1.1.map (·.1.status) = some 201 := by decide +kernel
  have hlater : (served (.ofSecs 36)).1.1.map (·.1.status) = some 408 := by decide +kernel
  unfold served at *
  refine ⟨⟨hsooner, ?_⟩, hlater, ?_⟩
  · obtain ⟨⟨a, ended⟩, hanswer, hstatus⟩ := Option.map_eq_some_iff.mp hsooner
    have hcreated := (created_iff_stored (hstores (.ofSecs 34)) ⟨.create [] 10, .empty⟩ errand
      Agent.Rehearsal.fresh rfl rfl).1
    exact hcreated.mp ⟨a, ended, hanswer, hstatus⟩
  · have hkept := (created_iff_stored (hstores (.ofSecs 36)) ⟨.create [] 10, .empty⟩ errand
      Agent.Rehearsal.fresh rfl rfl).2.2
    refine hkept fun a ended hanswer hcreated => ?_
    rw [hanswer] at hlater
    simp [hcreated] at hlater

end Rehearsal

end ChainAgent.Gateway
