import ChainAgent.Proofs.Agent.Plan

/-! The effects of a run.

What holds of the story of a run holds of every run: it calls its collaborators in the order of its
plan and none of them for a blank goal, it has a task exactly when its write gave one, and it stores
nothing unless its write has begun. A failing knowledge lookup or chain action does not make it fail
(`run_effects`). -/
namespace ChainAgent.Agent

open Time (Span Work Course)

section Effects

variable {σ α : Type} {a : Agent (StateM σ)} {goal action address : String} {s left : σ}
  {calls : List Call} {r : Option (Except Failure Task)}

/-! ### Failing lookups -/

/-- The calls without those of a lookup. -/
def besidesLookups (calls : List Call) : List Call := calls.filter (·.kind != .lookup)

section Knowledge

variable {γ : Type} {view : σ → γ}

theorem GoesBy.recording {work : StateM σ α} (h : GoesBy view work) (call : α → Call) :
    GoesBy (fun x : σ × List Call => (view x.1, besidesLookups x.2)) (recording call work) := by
  rintro ⟨s, log⟩ ⟨s₀, log₀⟩ hview
  obtain ⟨hview, hlog⟩ := Prod.mk.inj hview
  obtain ⟨hsame, hleft⟩ := h hview
  refine ⟨hsame, Prod.ext hleft ?_⟩
  show besidesLookups (log₀ ++ _) = besidesLookups (log ++ _)
  unfold besidesLookups at hlog ⊢
  rw [List.filter_append, List.filter_append, hlog, hsame]

theorem Sees.recorded (h : a.Sees view) :
    a.recorded.Sees fun x : σ × List Call => (view x.1, besidesLookups x.2) where
  lookup := by
    rintro goal action ⟨s, log⟩
    have hlookup := h.lookup goal action s
    have hknowledge : a.recorded.knowledge = recordedBinding a.knowledge := rfl
    rw [hknowledge]
    cases hbinding : a.knowledge with
    | absent => rfl
    | present source =>
      rw [hbinding] at hlookup
      have hbound : (recordedSource source).maxResults = source.maxResults := rfl
      by_cases hmax : source.maxResults = 0
      · rw [recordedBinding, lookup_empty (hbound.trans hmax)]
      · rw [lookup_present hmax] at hlookup
        rw [recordedBinding, lookup_present (by rwa [hbound])]
        refine Prod.ext hlookup ?_
        show besidesLookups (log ++ [.lookup goal action _]) = besidesLookups log
        simp [besidesLookups, Call.kind]
  generate := fun r => (h.generate r).recording _
  execute := fun action address => (h.execute action address).recording _
  prepare := h.prepare.recording _
  record := fun d => (h.record d).recording _

/-- A lookup in the story of a run is the source's answer to the goal and the action. -/
theorem recalledStory_lookup {history : List Reasoning.PastTask}
    (h : a.recalledStory goal action address history s calls r left) {goal' action' : String}
    {w : Work (Except Knowledge.Failure (List Knowledge.Card))}
    (hc : .lookup goal' action' w ∈ calls) :
    ∃ source, a.knowledge = .present source ∧ source.maxResults ≠ 0 ∧
      w = (source.lookup goal action s).1 := by
  have hfront {front : List Call} {r' : Option (Except Failure (List Knowledge.Card))} {between : σ}
      (hstory : a.knowledgeStory goal action s front r' between)
      (hc : .lookup goal' action' w ∈ front) :
      ∃ source, a.knowledge = .present source ∧ source.maxResults ≠ 0 ∧
        w = (source.lookup goal action s).1 := by
    unfold knowledgeStory at hstory
    cases hknowledge : a.knowledge with
    | absent =>
      rw [hknowledge] at hstory
      cases hstory <;> exact absurd hc List.not_mem_nil
    | present source =>
      rw [hknowledge] at hstory
      by_cases hmax : source.maxResults = 0
      · simp only [hmax] at hstory
        cases hstory <;> exact absurd hc List.not_mem_nil
      · simp only [beq_eq_false_iff_ne.mpr hmax] at hstory
        refine ⟨source, rfl, hmax, ?_⟩
        cases hstory with
        | stopped i => exact absurd hc List.not_mem_nil
        | _ =>
          cases List.mem_singleton.mp hc
          rfl
  cases h with
  | abandoned h => exact hfront h hc
  | failed h => exact hfront h hc
  | went h hrest =>
    obtain hmem | hmem := List.mem_append.mp hc
    · exact hfront h hmem
    · have hplan := (a.requestedStory_inOrder _).kind_mem hrest hmem
      unfold chainPlan at hplan
      split at hplan <;> simp [Call.kind] at hplan

end Knowledge

/-! ### Runs -/

/-- A recorded run is the run, and its calls are those of its story. -/
theorem run_story (a : Agent (StateM σ)) (hgoal : Text.saysNothing goal = false) (ctx : Context)
    (action address : String) (s : σ) :
    (a.recorded.run ctx goal action address).run (s, []) =
        (((a.run ctx goal action address).run s).1, ((a.run ctx goal action address).run s).2,
          a.calls ctx goal action address s) ∧
      a.attemptStory (Text.trim goal) (Text.trim action) (Text.trim address) s
        (a.calls ctx goal action address s) (((a.run ctx goal action address).run s).1.map (·.1))
        ((a.run ctx goal action address).run s).2 := by
  obtain ⟨calls, hrun, hstory⟩ :=
    a.attempt_tells ctx (Text.trim goal) (Text.trim action) (Text.trim address) ctx.start s []
  rw [← a.recorded.run_of_goal action address (s, []) hgoal ctx,
    ← a.run_of_goal action address s hgoal ctx] at hrun
  rw [← a.run_of_goal action address s hgoal ctx] at hstory
  have hcalls : a.calls ctx goal action address s = calls := congrArg (·.2.2) hrun
  rw [hcalls]
  exact ⟨hrun, hstory⟩

theorem calls_of_blank (a : Agent (StateM σ)) (hgoal : Text.saysNothing goal = true) (ctx : Context)
    (action address : String) (s : σ) : a.calls ctx goal action address s = [] := by
  have hrun := a.recorded.run_of_blank action address (s, []) hgoal ctx
  exact congrArg (·.2.2) hrun

/-- A run has a task exactly when its write gave it. -/
theorem run_ok_iff (a : Agent (StateM σ)) (ctx : Context) (goal action address : String) (s : σ)
    (t : Task) : (∃ e, ((a.run ctx goal action address).run s).1 = some (.ok t, e)) ↔
      ∃ d, .record d (.ok t) ∈ a.calls ctx goal action address s := by
  cases hgoal : Text.saysNothing goal with
  | true =>
    rw [a.run_of_blank action address s hgoal ctx, a.calls_of_blank hgoal ctx]
    constructor
    · rintro ⟨e, hend⟩
      cases hend
    · rintro ⟨d, hc⟩
      exact absurd hc List.not_mem_nil
  | false =>
    obtain ⟨-, hstory⟩ := a.run_story hgoal ctx action address s
    rw [← attemptStory_ok hstory t, Option.map_eq_some_iff]
    constructor
    · rintro ⟨e, hend⟩
      exact ⟨_, hend, rfl⟩
    · rintro ⟨⟨r, e⟩, hend, rfl⟩
      exact ⟨e, hend⟩

section Knowledge

variable {γ : Type} {view : σ → γ}

/-- Without a knowledge source there is no lookup. -/
theorem calls_withoutKnowledge (a : Agent (StateM σ)) (ctx : Context) (goal action address : String)
    (s : σ) : besidesLookups (a.withoutKnowledge.calls ctx goal action address s) =
      a.withoutKnowledge.calls ctx goal action address s := by
  cases hgoal : Text.saysNothing goal with
  | true => rw [a.withoutKnowledge.calls_of_blank hgoal, besidesLookups, List.filter_nil]
  | false =>
    obtain ⟨-, hstory⟩ := a.withoutKnowledge.run_story hgoal ctx action address s
    refine List.filter_eq_self.mpr fun c hc => ?_
    have hplan := (attemptStory_inOrder _ _ _ _).kind_mem hstory hc
    have hlookup : Call.Kind.lookup ∉ a.withoutKnowledge.attemptPlan (Text.trim action) := by
      unfold attemptPlan historyPlan knowledgePlan chainPlan
      split_ifs <;> simp_all [withoutKnowledge, Knowledge.Binding.isActive]
    rw [bne_iff_ne]
    rintro hkind
    exact hlookup (hkind ▸ hplan)

/-- A failing lookup of a run gives no cards. -/
theorem recorded_lookup {ctx : Context} {history : List Reasoning.PastTask} {t : Span} {s : σ}
    {front calls : List Call} {r : Option (Except Failure Task × Span)}
    (hrun : outcome (a.recorded.recalledRun ctx goal action address history) t (s, front) =
      (r, left, calls))
    {goal' action' : String} {w : Work (Except Knowledge.Failure (List Knowledge.Card))}
    {f : Knowledge.Failure} (hc : .lookup goal' action' w ∈ calls)
    (hnone : .lookup goal' action' w ∉ front) (hfails : w.yields = .error f) :
    (a.recorded.knowledge.lookup goal action (s, front)).1.yields = .error f := by
  obtain ⟨back, hrest, hstory⟩ := a.recalledRun_tells ctx goal action address history t s front
  have hcalls : calls = front ++ back :=
    (congrArg (·.2.2) hrun).symm.trans (congrArg (·.2.2) hrest)
  rw [hcalls] at hc
  obtain ⟨source, hsource, hmax, rfl⟩ :=
    recalledStory_lookup hstory ((List.mem_append.mp hc).resolve_left hnone)
  have hknowledge : a.recorded.knowledge = .present (recordedSource source) := by
    show recordedBinding a.knowledge = _
    rw [hsource]
    rfl
  have hbound : (recordedSource source).maxResults ≠ 0 := hmax
  rw [hknowledge, lookup_present hbound]
  show (source.lookup goal action s).1.yields.map _ = _
  rw [hfails]
  rfl

/-- **A failing lookup makes no difference** to a run that completes: without a knowledge source it
makes the other calls, has the same result and leaves the same state. -/
theorem Sees.run (h : a.Sees view) {ctx : Context} {s : σ} {r : Except Failure Task} {e : Span}
    (hend : ((a.run ctx goal action address).run s).1 = some (r, e)) (hcompletes : Completes r)
    {goal' action' : String} {w : Work (Except Knowledge.Failure (List Knowledge.Card))}
    {f : Knowledge.Failure} (hc : .lookup goal' action' w ∈ a.calls ctx goal action address s)
    (hfails : w.yields = .error f) :
    a.withoutKnowledge.calls ctx goal action address s =
        besidesLookups (a.calls ctx goal action address s) ∧
      (∃ e₀, e₀.nanos ≤ e.nanos ∧
        ((a.withoutKnowledge.run ctx goal action address).run s).1 = some (r, e₀)) ∧
      view ((a.withoutKnowledge.run ctx goal action address).run s).2 =
        view ((a.run ctx goal action address).run s).2 := by
  cases hgoal : Text.saysNothing goal with
  | true =>
    rw [a.calls_of_blank hgoal] at hc
    exact absurd hc List.not_mem_nil
  | false =>
    obtain ⟨hrecorded, -⟩ := a.run_story hgoal ctx action address s
    obtain ⟨hbare, -⟩ := a.withoutKnowledge.run_story hgoal ctx action address s
    generalize a.calls ctx goal action address s = calls at hc hrecorded ⊢
    rw [← calls_withoutKnowledge]
    generalize a.withoutKnowledge.calls ctx goal action address s = bareCalls at hbare ⊢
    generalize (a.withoutKnowledge.run ctx goal action address).run s = bare at hbare ⊢
    rw [run_of_goal _ _ _ _ hgoal, attempt_eq, outcome_bind] at hrecorded hbare
    rw [hend] at hrecorded
    have hsame : a.withoutKnowledge.recorded.recallHistory ctx = a.recorded.recallHistory ctx := rfl
    rw [hsame] at hbare
    obtain ⟨front, hrecall, hhistory⟩ := a.recallHistory_tells ctx ctx.start s []
    rw [hrecall, List.nil_append] at hrecorded hbare
    have hnone : .lookup goal' action' w ∉ front := fun hmem =>
      absurd (eq_of_mem_historyPlan (a.historyStory_inOrder.kind_mem hhistory hmem)) nofun
    generalize outcome (a.recallHistory ctx) ctx.start s = recalled at hrecorded hbare
    rcases recalled with ⟨_ | ⟨g | history, t⟩, s'⟩
    · cases hrecorded
    · cases hrecorded
      exact absurd hc hnone
    · dsimp only at hrecorded hbare
      have hlookup := recorded_lookup hrecorded hc hnone hfails
      obtain ⟨e₀, left₀, hle, hrun, hview⟩ := h.recorded.recalledRun hlookup hrecorded hcompletes
      obtain ⟨rfl, rfl⟩ : bare = (some (r, e₀), left₀.1) ∧ bareCalls = left₀.2 := by
        have hbare' : a.withoutKnowledge.recorded = a.recorded.withoutKnowledge := rfl
        rw [hbare', hrun] at hbare
        exact ⟨Prod.ext (congrArg (·.1) hbare).symm (congrArg (·.2.1) hbare).symm,
          (congrArg (·.2.2) hbare).symm⟩
      obtain ⟨hview, hcalls⟩ := Prod.mk.inj hview
      exact ⟨hcalls, ⟨e₀, hle, rfl⟩, hview⟩

end Knowledge

/-- **A run has its effects in order, and all of them or none.** It makes the calls of its plan in
their order, each at most once; the chain action is executed after a reply, with the run's action
and address; a blank goal is refused before any call. The run has a task exactly when its write gave
that task, and stores nothing unless its write has begun. When it completes, a failing lookup has
made no difference, and after a chain action, whether that succeeded or failed, the result is that
of the write. -/
theorem run_effects (a : Agent (StateM σ)) (ctx : Context) (goal action address : String) (s : σ) :
    let calls := a.calls ctx goal action address s
    let run := (a.run ctx goal action address).run s
    (a.recorded.run ctx goal action address).run (s, []) = (run.1, run.2, calls) ∧
    calls.map Call.kind <+: a.plan goal action ∧ (calls.map Call.kind).Nodup ∧
    (∀ action' address' w, .execute action' address' w ∈ calls →
      action' = Text.trim action ∧ address' = Text.trim address ∧
      ∃ front q w' reply back, calls = front ++ .generate q w' :: .execute action' address' w :: back ∧
        a.replyWithin w' = .ok reply ∧ Text.saysNothing reply.reply = false) ∧
    (Text.saysNothing goal = true →
      run = (some (.error (.invalidInput "goal must not be empty"), ctx.start), s) ∧ calls = []) ∧
    (∀ t, (∃ e, run.1 = some (.ok t, e)) ↔ ∃ d, .record d (.ok t) ∈ calls) ∧
    (∀ {γ : Type} (view : σ → γ), a.Keeps view → (∀ c ∈ calls, c.kind ≠ .prepare) →
      view run.2 = view s) ∧
    ∀ r e, run.1 = some (r, e) → Completes r →
      (∀ {γ : Type} (view : σ → γ), a.Sees view →
        (∃ goal' action' w f, .lookup goal' action' w ∈ calls ∧ w.yields = .error f) →
        let bare := (a.withoutKnowledge.run ctx goal action address).run s
        a.withoutKnowledge.calls ctx goal action address s = besidesLookups calls ∧
          (∃ e₀, e₀.nanos ≤ e.nanos ∧ bare.1 = some (r, e₀)) ∧ view bare.2 = view run.2) ∧
      ∀ action' address' w, .execute action' address' w ∈ calls → IsWritten calls r := by
  intro calls run
  have hok (t : Task) : (∃ e, run.1 = some (.ok t, e)) ↔ ∃ d, .record d (.ok t) ∈ calls :=
    a.run_ok_iff ctx goal action address s t
  cases hgoal : Text.saysNothing goal with
  | true =>
    have hcalls : calls = [] := a.calls_of_blank hgoal ctx action address s
    have hrun : run = _ := a.run_of_blank action address s hgoal ctx
    have hrecorded := a.recorded.run_of_blank action address (s, []) hgoal ctx
    rw [hcalls, hrun] at hok ⊢
    refine ⟨hrecorded, List.nil_prefix, List.nodup_nil, nofun, fun _ => ⟨rfl, rfl⟩, hok, ?_, ?_⟩
    · intro γ view _ _
      rfl
    · intro r e _ _
      refine ⟨?_, nofun⟩
      rintro γ view - ⟨goal', action', w, f, hc, -⟩
      exact absurd hc List.not_mem_nil
  | false =>
    obtain ⟨hrecorded, hstory⟩ := a.run_story hgoal ctx action address s
    have horder := (a.attemptStory_inOrder _ _ _).order hstory
    have hplan : a.plan goal action = a.attemptPlan (Text.trim action) :=
      if_neg (by rw [hgoal]; exact Bool.false_ne_true)
    refine ⟨hrecorded, hplan ▸ horder, horder.sublist.nodup (a.attemptPlan_nodup _), ?_,
      nofun, hok, ?_, ?_⟩
    · intro action' address' w hc
      obtain ⟨-, haction, haddress, hreplied, -⟩ := attemptStory_executed hstory hc
      exact ⟨haction, haddress, hreplied⟩
    · intro γ view hkeeps hcalls
      exact hkeeps.attemptStory_spares _ _ _ hstory hcalls
    · intro r e hend hcompletes
      constructor
      · rintro γ view hsees ⟨goal', action', w, f, hc, hfails⟩
        exact hsees.run hend hcompletes hc hfails
      · intro action' address' w hc
        obtain ⟨-, -, -, -, hwritten⟩ := attemptStory_executed hstory hc
        exact hwritten r (congrArg (Option.map (·.1)) hend) hcompletes

end Effects

/-- An agent with a failing knowledge source and a chain action that exceeds its timeout. -/
def luckless : Agent (StateM (List Task)) where
  ledger :=
    { name := "list"
      recent := fun limit tasks => (⟨some ⟨1⟩, .ok (tasks.reverse.take limit)⟩, tasks)
      get := fun id tasks => (.done (.error (.notFound id)), tasks)
      stats := fun tasks => (.done (.ok (.of tasks)), tasks)
      prepare := fun tasks => (⟨some ⟨2⟩, .ok ()⟩, tasks)
      record := fun d tasks =>
        (.ok (d.stored (.ofNat tasks.length) 100), tasks ++ [d.stored (.ofNat tasks.length) 100]) }
  knowledge := .present ⟨"broken", 3, fun _ _ tasks =>
    (⟨some ⟨4⟩, .error (.unreadable "cards.json" "no such file")⟩, tasks)⟩
  generate := fun _ tasks => (⟨some ⟨5⟩, .ok ⟨"", "yes"⟩⟩, tasks)
  reasoningTimeout := ⟨8⟩
  execute := fun _ _ tasks => (⟨some ⟨50⟩, .ok ⟨"late", none, none⟩⟩, tasks)
  options := ⟨2, none, ⟨9⟩⟩

theorem luckless_sees : luckless.Sees id where
  lookup := fun _ _ _ => rfl
  generate := fun _ _ _ h => ⟨rfl, h⟩
  execute := fun _ _ _ _ h => ⟨rfl, h⟩
  prepare := fun _ _ h => ⟨rfl, h⟩
  record := fun _ s s₀ h => by
    obtain rfl : s₀ = s := h
    exact ⟨rfl, rfl⟩

theorem luckless_keeps : luckless.Keeps id where
  recent := fun _ _ => rfl
  lookup := fun _ _ _ => rfl
  generate := fun _ _ => rfl
  execute := fun _ _ _ => rfl

/-- The failing lookup and the chain timeout only show in the stored observations, and without the
lookup the run ends sooner. A deadline during reasoning would have left the ledger empty. -/
theorem luckless_effects :
    ∃ t : Task, t.observations = "chain action `balance` failed: chain action timed out after 9ns" ∧
      ((luckless.run {deadline := some ⟨30⟩} " go " "balance" "").run []) =
        (some (.ok t, ⟨21⟩), [t]) ∧
      (luckless.calls {deadline := some ⟨30⟩} " go " "balance" "" []).map Call.kind =
        [.recent, .lookup, .generate, .execute, .prepare, .record] ∧
      IsWritten (luckless.calls {deadline := some ⟨30⟩} " go " "balance" "" []) (.ok t) ∧
      (∃ e₀, e₀.nanos ≤ 21 ∧
        ((luckless.withoutKnowledge.run {deadline := some ⟨30⟩} " go " "balance" "").run []).1 =
          some (.ok t, e₀)) ∧
      ((luckless.run {deadline := some ⟨8⟩} " go " "balance" "").run []).2 = [] := by
  obtain ⟨t, hobserved, hrun⟩ : ∃ t : Task,
      t.observations = "chain action `balance` failed: chain action timed out after 9ns" ∧
      ((luckless.run {deadline := some ⟨30⟩} " go " "balance" "").run []) =
        (some (.ok t, ⟨21⟩), [t]) := ⟨_, rfl, rfl⟩
  obtain ⟨-, -, -, -, -, -, -, hends⟩ :=
    run_effects luckless {deadline := some ⟨30⟩} " go " "balance" "" []
  obtain ⟨hsame, hwritten⟩ := hends (.ok t) ⟨21⟩ (congrArg (·.1) hrun) (completes_ok t)
  have hlookup : .lookup "go" "balance" ⟨some ⟨4⟩, .error (.unreadable "cards.json" "no such file")⟩ ∈
      luckless.calls {deadline := some ⟨30⟩} " go " "balance" "" [] :=
    .tail _ (.head _)
  have hexecute : .execute "balance" "" ⟨some ⟨50⟩, .ok ⟨"late", none, none⟩⟩ ∈
      luckless.calls {deadline := some ⟨30⟩} " go " "balance" "" [] :=
    .tail _ (.tail _ (.tail _ (.head _)))
  obtain ⟨-, hsooner, -⟩ := hsame id luckless_sees ⟨_, _, _, _, hlookup, rfl⟩
  obtain ⟨-, -, -, -, -, -, hkept, -⟩ :=
    run_effects luckless {deadline := some ⟨8⟩} " go " "balance" "" []
  have hearly : (luckless.calls {deadline := some ⟨8⟩} " go " "balance" "" []).map Call.kind =
      [.recent, .lookup, .generate] := rfl
  refine ⟨t, hobserved, hrun, rfl, hwritten _ _ _ hexecute, hsooner,
    hkept id luckless_keeps fun c hc hkind => ?_⟩
  have hmem := List.mem_map_of_mem (f := Call.kind) hc
  rw [hearly, hkind] at hmem
  exact absurd hmem (by decide)

end ChainAgent.Agent
