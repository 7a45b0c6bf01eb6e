import ChainAgent.Command.Dispatch
import ChainAgent.Proofs.Gateway.Bookkeeping
import ChainAgent.Proofs.Settings.RoundTrip

/-! Deadlines beyond the range of the clock.

The deadline of a request is an instant, and the seconds of an instant are a signed 64-bit integer.
Validation does not bound the configured request timeout (`exists_parse_timed`), so the deadline may
overflow: a run panics then as soon as it begins, and so does one behind a gateway (`aborted_iff`).
The timeout of the gateway itself is a duration and no instant; its bound is twice as large, and
starting a gateway panics for the five longest timeouts only. -/
namespace ChainAgent

open Time (Span)

/-! ### What is loaded -/

namespace Settings

/-- An accepted configuration is a configuration with the environment applied. -/
theorem overridden_of_accepted {σ : Type} {h : Host (StateM σ)} {file s : Settings} {w w' : σ}
    (haccepted : accepted h file w = (.ok s, w')) :
    s.validate = .ok () ∧ ∃ vs, file.overridden vs = s := by
  rw [accepted, bind_apply] at haccepted
  generalize variablesOf h w = asked at haccepted
  obtain ⟨vs, left⟩ := asked
  dsimp only at haccepted
  cases hvalid : (file.overridden vs).validate with
  | error f =>
    rw [hvalid] at haccepted
    cases haccepted
  | ok _ =>
    rw [hvalid] at haccepted
    cases haccepted
    exact ⟨hvalid, vs, rfl⟩

/-- A loaded configuration is valid, and its numbers fit into their fields. -/
theorem validate_and_fits_of_loadFrom {σ : Type} {h : Host (StateM σ)} {path : String} {w w' : σ}
    {s : Settings} (hload : loadFrom h path w = (.ok s, w')) : s.validate = .ok () ∧ s.Fits := by
  rw [loadFrom, bind_apply] at hload
  cases hread : (h.readText path w).1 with
  | error f =>
    rw [hread] at hload
    cases hload
  | ok text =>
    rw [hread] at hload
    cases hparse : parse text with
    | none =>
      simp only [hparse] at hload
      cases hload
    | some file =>
      simp only [hparse] at hload
      obtain ⟨hvalid, vs, rfl⟩ := overridden_of_accepted hload
      exact ⟨hvalid, fits_overridden (fits_of_parse hparse path) vs⟩

/-- The configuration with another request timeout. -/
def timed (s : Settings) (secs : Nat) : Settings :=
  {s with agent := {s.agent with requestTimeoutSecs := secs}}

/-- Every request timeout can be saved, and validation accepts it. -/
theorem exists_parse_timed {s : Settings} (hvalid : s.validate = .ok ()) (hfits : s.Fits)
    {secs : Nat} (hsecs : secs < 2 ^ 64) :
    (s.timed secs).validate = .ok () ∧
      ∃ text, parse text = some {s.timed secs with path := "", baseDir := ""} := by
  have hvalid' : (s.timed secs).validate = .ok () := hvalid
  obtain ⟨⟨hmemory, hllm, hchain, -⟩, hreasoning, hknowledge, hstorage, hgateway⟩ := hfits
  have hfits' : (s.timed secs).Fits :=
    ⟨⟨hmemory, hllm, hchain, hsecs⟩, hreasoning, hknowledge, hstorage, hgateway⟩
  obtain ⟨hopenai, hollama⟩ := isMagnitude_of_validate hvalid'
  obtain ⟨text, -, hparse⟩ := parse_encode hfits' hopenai hollama
  exact ⟨hvalid', text, hparse⟩

end Settings

/-! ### Sums of times -/

namespace Settings.Agent

variable (a : Settings.Agent)

theorem deadlineOf_eq_none_iff (now : Span) :
    Gateway.deadlineOf now a.requestTimeout = none ↔
      2 ^ 63 ≤ now.secs + max a.requestTimeoutSecs 1 := by
  have hsecs : (now + a.requestTimeout).secs = now.secs + max a.requestTimeoutSecs 1 :=
    Nat.add_mul_div_right now.nanos _ (by decide)
  have hbound : Gateway.instantBound = 2 ^ 63 := by decide
  simp only [Gateway.deadlineOf, hsecs, hbound, ite_eq_right_iff, reduceCtorEq, imp_false, not_lt]

theorem isPatient_eq_false_iff :
    Gateway.isPatient a.requestTimeout = false ↔ 2 ^ 64 ≤ max a.requestTimeoutSecs 1 + 5 := by
  have hsecs : (Gateway.patience a.requestTimeout).secs = max a.requestTimeoutSecs 1 + 5 := by
    show (max a.requestTimeoutSecs 1 * 1000000000 + 5 * 1000000000) / 1000000000 = _
    omega
  have hbound : Gateway.spanBound = 2 ^ 64 := by decide
  rw [Gateway.isPatient, hsecs, hbound, decide_eq_false_iff_not, not_lt]

end Settings.Agent

/-! ### What is aborted -/

namespace Command

open Agent.Rehearsal (Stage terse)
open Gateway.Rehearsal (gateway errand)

variable {σ : Type} {h : Host (StateM σ)} {s : Settings} {w left : σ}

/-- A gateway starts: its address is free, it has a usable client if it needs one, and its agent is
wired. -/
structure Opens (h : Host (StateM σ)) (s : Settings) (host : String) (port : Nat) (w left : σ) :
    Prop where
  address : Gateway.isAddress host = true
  listens : (h.listen host port w).1 = .ok ()
  admits : Gateway.mayOpen s.gateway = true
  wired : ∃ wiring, Agent.wire h s (h.listen host port w).2 = (.ok wiring, left)

theorem openGateway_aborted_iff {host : String} {port : Nat} (hopens : Opens h s host port w left) :
    (openGateway h s host port w).1 = .aborted ↔
      2 ^ 64 ≤ max s.agent.requestTimeoutSecs 1 + 5 := by
  obtain ⟨haddress, hlistens, hadmits, wiring, hwired⟩ := hopens
  have hopen : openGateway h s host port w =
      (if !Gateway.isPatient s.agent.requestTimeout then .aborted
        else .serving s host port wiring, left) := by
    rw [openGateway, haddress]
    show (h.listen host port >>= _) w = _
    rw [bind_apply, hlistens]
    dsimp only
    rw [hadmits]
    show (Agent.wire h s >>= _) _ = _
    rw [bind_apply, hwired]
    dsimp only
    split <;> rfl
  rw [hopen, ← s.agent.isPatient_eq_false_iff]
  cases Gateway.isPatient s.agent.requestTimeout <;> simp

theorem runGoal_aborted_iff {wiring : Agent.Wiring (StateM σ)}
    (hwired : Agent.wire h s w = (.ok wiring, left)) (goal action address : String) :
    (runGoal h s goal action address w).1 = .aborted ↔
      2 ^ 63 ≤ (h.uptime left).1.secs + max s.agent.requestTimeoutSecs 1 := by
  rw [← s.agent.deadlineOf_eq_none_iff, runGoal, bind_apply, hwired]
  dsimp only
  rw [bind_apply]
  cases hdeadline : Gateway.deadlineOf (h.uptime left).1 s.agent.requestTimeout with
  | none => exact iff_of_true rfl rfl
  | some instant =>
    refine iff_of_false ?_ (Option.some_ne_none instant)
    simp only [Option.isNone_some, Bool.false_eq_true, if_false]
    rw [bind_apply]
    -- a run that has begun prints a task, or says why there is none
    rcases ((wiring.agent.run _ goal action address).run wiring.session (h.uptime left).2).1.1 with
      _ | ⟨_ | _, _⟩ <;> exact nofun

/-- A requested run behind a gateway. -/
theorem serve_none_iff {τ : Type} {g : Gateway (StateM τ)} {a : Settings.Agent}
    (htimeout : g.requestTimeout = a.requestTimeout) {state next : Gateway.State}
    {r : Gateway.Request} {stage : τ} {route : Gateway.Route} {e : Gateway.Errand}
    (hreceived : g.received state r stage = (.working route (.run e), next)) :
    ((g.serve state r).run stage).1.1 = none ↔
      2 ^ 63 ≤ (g.started stage).secs + max a.requestTimeoutSecs 1 := by
  rw [Gateway.serve_working hreceived, ← a.deadlineOf_eq_none_iff, htimeout]
  cases hdeadline : Gateway.deadlineOf (g.started stage) a.requestTimeout with
  | none => exact iff_of_true rfl rfl
  | some instant =>
    refine iff_of_false ?_ (Option.some_ne_none instant)
    simp only [Option.isNone_some, Bool.and_false, Bool.false_eq_true, if_false]
    rcases (g.perform (.run e)).run (g.begun stage) with ⟨_ | _, _⟩ <;> exact nofun

/-- **A run panics exactly where its deadline overflows, and every timeout that can be written is
accepted**: starting a gateway panics for the five longest of these only. -/
theorem aborted_iff {path : String} {w' : σ} (hload : Settings.loadFrom h path w = (.ok s, w')) :
    (s.agent.requestTimeoutSecs < 2 ^ 64 ∧
      ∀ secs < 2 ^ 64, (s.timed secs).validate = .ok () ∧
        ∃ text, Settings.parse text = some {s.timed secs with path := "", baseDir := ""}) ∧
    (∀ host port before left,
      Opens h s (host.getD s.gateway.host) (port.getD s.gateway.port) before left →
        ((perform h s (.serve host port) before).1 = .aborted ↔
          2 ^ 64 ≤ max s.agent.requestTimeoutSecs 1 + 5)) ∧
    (∀ goal action address before left wiring, Agent.wire h s before = (.ok wiring, left) →
      ((perform h s (.run goal action address) before).1 = .aborted ↔
        2 ^ 63 ≤ (h.uptime left).1.secs + max s.agent.requestTimeoutSecs 1)) ∧
    ∀ (τ : Type) (g : Gateway (StateM τ)) state r stage route e next,
      g.requestTimeout = s.agent.requestTimeout →
        g.received state r stage = (.working route (.run e), next) →
          (((g.serve state r).run stage).1.1 = none ↔
            2 ^ 63 ≤ (g.started stage).secs + max s.agent.requestTimeoutSecs 1) := by
  obtain ⟨hvalid, hfits⟩ := Settings.validate_and_fits_of_loadFrom hload
  obtain ⟨-, -, -, hsecs⟩ := hfits.agent
  refine ⟨⟨hsecs, fun secs hsecs => Settings.exists_parse_timed hvalid hfits hsecs⟩, ?_, ?_, ?_⟩
  · intro host port before left hopens
    exact openGateway_aborted_iff hopens
  · intro goal action address before left wiring hwired
    exact runGoal_aborted_iff hwired goal (action.getD "") (address.getD "")
  · intro τ g state r stage route e next htimeout hreceived
    exact serve_none_iff htimeout hreceived

/-- A gateway without authentication begins a run for a valid request. -/
theorem received_errand {τ : Type} {g : Gateway (StateM τ)} (hopen : g.requireAuth = false)
    (state : Gateway.State) (stage : τ) :
    ∃ e, g.received state errand stage = (.working .createTask (.run e), state) := by
  have hpath : errand.path = "/api/v1/tasks" := by decide +kernel
  have hmodest : errand.isOversized = false := by decide +kernel
  have hroute : Gateway.routeOf errand = .ok .createTask := by
    rw [Gateway.routeOf, hpath]
    rfl
  obtain ⟨e, hbody⟩ : ∃ e, errand.decodeBody Gateway.Errand.decode = .ok e :=
    Settings.exists_of_isOk (by decide +kernel)
  refine ⟨e, ?_⟩
  rw [Gateway.received, Gateway.receive, hmodest, hroute, hopen]
  simp only [Gateway.jobOf, hbody]
  rfl

/-- With the longest timeout that a signed integer holds, a machine with an uptime of one second
starts its gateway and panics at every run, on the command line or behind the gateway. -/
theorem aborted_iff_longest :
    ∃ s, ∃ w : World, Settings.loadFrom World.host "config.toml" w = (.ok s, w) ∧
      s.agent.requestTimeoutSecs = 2 ^ 63 - 1 ∧ w.uptime = .ofSecs 1 ∧
      (perform World.host s (.serve none none) w).1 ≠ .aborted ∧
      (perform World.host s (.run "hello" none none) w).1 = .aborted ∧
      ∃ g : Gateway (StateM Stage), g.requestTimeout = s.agent.requestTimeout ∧
        ∃ state stage, g.started stage = .ofSecs 1 ∧ ((g.serve state errand).run stage).1.1 = none := by
  let text := "[agent]\nrequest_timeout_secs = 9223372036854775807\n" ++
    "[gateway]\nhost = \"127.0.0.1\"\nrequire_auth = false\n"
  let w : World := {World.configured text [] with uptime := .ofSecs 1}
  have hplace : w.place "config.toml" = ["config.toml"] := by decide +kernel
  have hread : World.host.readText "config.toml" w = (.ok text, w) :=
    World.readText_file (by rw [hplace]; rfl)
  have hparse : (Settings.parse text).any (fun file =>
      let s := (file.placed "config.toml").overridden w.changes
      s.validate.isOk && s.agent.requestTimeoutSecs == 2 ^ 63 - 1 && Gateway.isAddress s.gateway.host &&
        Gateway.mayOpen s.gateway && (World.host.listen s.gateway.host s.gateway.port w).1.isOk &&
        (Agent.wire World.host s w).1.isOk && (Agent.wire World.host s w).2.uptime.secs == 1) = true := by
    decide +kernel
  obtain ⟨file, hfile, hsays⟩ := (Option.any_eq_true _ _).mp hparse
  simp only [Bool.and_eq_true, beq_iff_eq] at hsays
  obtain ⟨⟨⟨⟨⟨⟨hvalid, hsecs⟩, haddress⟩, hadmits⟩, hlistens⟩, hwires⟩, huptime⟩ := hsays
  have hload := Settings.loadFrom_of_isOk hread hfile hvalid
  generalize (file.placed "config.toml").overridden w.changes = s at *
  obtain ⟨⟨⟩, hlisten⟩ := Settings.exists_of_isOk hlistens
  obtain ⟨wiring, hwiring⟩ := Settings.exists_of_isOk hwires
  have hwired : Agent.wire World.host s w = (.ok wiring, (Agent.wire World.host s w).2) :=
    Prod.ext hwiring rfl
  let g := gateway (terse ⟨.echo, some ⟨1⟩, ⟨8⟩⟩ (.error .notConfigured)) false (.ofSecs (2 ^ 63 - 1))
  have hpatience : g.requestTimeout = s.agent.requestTimeout := by
    rw [Settings.Agent.requestTimeout, hsecs, max_eq_left (by omega)]
    rfl
  let stage : Stage := {Agent.Rehearsal.fresh with uptime := .ofSecs 1}
  let state : Gateway.State := ⟨.create [] 10, .empty⟩
  obtain ⟨e, hreceived⟩ := received_errand (g := g) rfl state stage
  obtain ⟨-, hserve, hrun, hbehind⟩ := aborted_iff hload
  refine ⟨s, w, hload, hsecs, rfl, ?_, ?_, g, hpatience, state, stage, rfl, ?_⟩
  · rw [Ne, hserve none none w _ ⟨haddress, hlisten, hadmits, wiring, hwired⟩, hsecs]
    omega
  · rw [hrun "hello" none none w _ wiring hwired, hsecs]
    have hup : (World.host.uptime (Agent.wire World.host s w).2).1.secs = 1 := huptime
    omega
  · rw [hbehind Stage g state errand stage .createTask e state hpatience hreceived, hsecs]
    have hstarted : (g.started stage).secs = 1 := by decide
    omega

end Command

end ChainAgent
