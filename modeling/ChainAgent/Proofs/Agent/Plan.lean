import ChainAgent.Proofs.Agent.Interruption
import ChainAgent.Proofs.Agent.Sooner

/-! The order of a run's calls.

A run calls its collaborators in the order of its `plan`, each at most once, and a run that ends
early has made some of the first of these calls (`attemptStory_inOrder`). The calls tell how far a
run has come: when the chain action has been executed, the backend has replied before
(`attemptStory_executed`); when a write has been made, its answer is the result (`attemptStory_ok`);
when no write has begun, nothing is stored (`Keeps.attemptStory_spares`). -/
namespace ChainAgent.Agent

open Time (Span Work Course)

/-! ### Order -/

section Order

variable {σ α β : Type}

/-- A story whose calls are in the order of a plan, and all of them if the story succeeds. -/
structure Story.InOrder (plan : List Call.Kind) (story : Story σ α) : Prop where
  order : ∀ {s calls r left}, story s calls r left → calls.map Call.kind <+: plan
  whole : ∀ {s calls a left}, story s calls (some (.ok a)) left → calls.map Call.kind = plan

theorem Story.InOrder.kind_mem {plan : List Call.Kind} {story : Story σ α} (h : story.InOrder plan)
    {s left : σ} {calls : List Call} {r : Option (Except Failure α)}
    (hstory : story s calls r left) {c : Call} (hc : c ∈ calls) : c.kind ∈ plan :=
  (h.order hstory).subset (List.mem_map_of_mem hc)

theorem Story.passing_inOrder (step : Step) (a : α) :
    Story.InOrder (σ := σ) [] (Story.Passing step a) where
  order := fun h => by cases h <;> exact List.prefix_refl _
  whole := fun h => by cases h; rfl

/-- The call of a step comes before all later ones. -/
theorem Story.Asking.calls_of_ok {step : Step} {call : β → Call} {work : StateM σ β}
    {answer : β → Except Failure α} {s left : σ} {calls : List Call} {a : α}
    (h : Story.Asking step call work answer s calls (some (.ok a)) left) :
    calls = [call (work s).1] ∧ answer (work s).1 = .ok a ∧ left = (work s).2 := by
  generalize hr : (some (.ok a) : Option (Except Failure α)) = r at h
  cases h with
  | stopped i => cases hr
  | interrupted i => cases hr
  | abandoned => cases hr
  | answered => exact ⟨rfl, (Option.some.inj hr).symm, rfl⟩

theorem Story.asking_inOrder {step : Step} {call : β → Call} {work : StateM σ β}
    {answer : β → Except Failure α} {kind : Call.Kind} (hkind : ∀ b, (call b).kind = kind) :
    Story.InOrder [kind] (Story.Asking step call work answer) where
  order := fun h => by
    cases h with
    | stopped i => exact List.nil_prefix
    | _ => exact (by simp [hkind])
  whole := fun h => by
    rw [h.calls_of_ok.1]
    simp [hkind]

theorem Story.writing_inOrder (a : Agent (StateM σ)) (d : Task.Draft) :
    Story.InOrder [.prepare, .record] (Story.Writing a d) where
  order := fun h => by
    cases h with
    | stopped i => exact List.nil_prefix
    | abandoned => exact ⟨[.record], rfl⟩
    | refused _ => exact ⟨[.record], rfl⟩
    | recorded _ => exact List.prefix_refl _
  whole := fun {_ _ t _} h => by
    generalize hr : (some (.ok t) : Option (Except Failure Task)) = r at h
    cases h with
    | stopped i => cases hr
    | abandoned => cases hr
    | refused _ => cases hr
    | recorded _ => rfl

theorem Story.InOrder.andThen {front back : List Call.Kind} {first : Story σ α}
    {next : α → Story σ β} (hfirst : first.InOrder front) (hnext : ∀ a, (next a).InOrder back) :
    Story.InOrder (front ++ back) (first.AndThen next) where
  order := fun h => by
    cases h with
    | abandoned h => exact (hfirst.order h).trans (List.prefix_append _ _)
    | failed h => exact (hfirst.order h).trans (List.prefix_append _ _)
    | went h hrest =>
      rw [List.map_append, hfirst.whole h]
      exact (List.prefix_append_right_inj _).mpr ((hnext _).order hrest)
  whole := fun h => by
    cases h with
    | went h hrest => rw [List.map_append, hfirst.whole h, (hnext _).whole hrest]

/-- If a call is made that is not in the plan of the first story, that story has succeeded. -/
theorem Story.AndThen.went_of_mem {plan : List Call.Kind} {first : Story σ α} {next : α → Story σ β}
    (hfirst : first.InOrder plan) {s left : σ} {calls : List Call} {r : Option (Except Failure β)}
    (h : first.AndThen next s calls r left) {c : Call} (hc : c ∈ calls) (hkind : c.kind ∉ plan) :
    ∃ front a between back, calls = front ++ back ∧ first s front (some (.ok a)) between ∧
      next a between back r left ∧ c ∈ back := by
  cases h with
  | abandoned h => exact absurd (hfirst.kind_mem h hc) hkind
  | failed h => exact absurd (hfirst.kind_mem h hc) hkind
  | went h hrest =>
    obtain hfront | hback := List.mem_append.mp hc
    · exact absurd (hfirst.kind_mem h hfront) hkind
    · exact ⟨_, _, _, _, rfl, h, hrest, hback⟩

/-! ### The plan of a run -/

variable (a : Agent (StateM σ))

def historyPlan : List Call.Kind := if a.options.memoryDepth == 0 then [] else [.recent]

def knowledgePlan : List Call.Kind := if a.knowledge.isActive then [.lookup] else []

def chainPlan (action : String) : List Call.Kind := if action.isEmpty then [] else [.execute]

/-- The calls of a run that completes, if its goal is not blank. -/
def attemptPlan (action : String) : List Call.Kind :=
  a.historyPlan ++ (a.knowledgePlan ++ ([.generate] ++ (chainPlan action ++ [.prepare, .record])))

/-- The calls of a run that completes. -/
def plan (goal action : String) : List Call.Kind :=
  if Text.saysNothing goal then [] else a.attemptPlan (Text.trim action)

variable {a} in
theorem eq_of_mem_historyPlan {kind : Call.Kind} (h : kind ∈ a.historyPlan) : kind = .recent := by
  unfold historyPlan at h
  split at h
  · exact absurd h List.not_mem_nil
  · exact List.mem_singleton.mp h

variable {a} in
theorem eq_of_mem_knowledgePlan {kind : Call.Kind} (h : kind ∈ a.knowledgePlan) :
    kind = .lookup := by
  unfold knowledgePlan at h
  split at h
  · exact List.mem_singleton.mp h
  · exact absurd h List.not_mem_nil

theorem eq_of_mem_chainPlan {kind : Call.Kind} {action : String} (h : kind ∈ chainPlan action) :
    kind = .execute := by
  unfold chainPlan at h
  split at h
  · exact absurd h List.not_mem_nil
  · exact List.mem_singleton.mp h

theorem attemptPlan_nodup (action : String) : (a.attemptPlan action).Nodup := by
  unfold attemptPlan historyPlan knowledgePlan chainPlan
  split_ifs <;> decide

theorem historyStory_inOrder : a.historyStory.InOrder a.historyPlan := by
  unfold historyStory historyPlan
  split
  · exact Story.passing_inOrder _ _
  · exact Story.asking_inOrder fun _ => rfl

theorem knowledgeStory_inOrder (goal action : String) :
    (a.knowledgeStory goal action).InOrder a.knowledgePlan := by
  unfold knowledgeStory knowledgePlan Knowledge.Binding.isActive
  cases a.knowledge with
  | absent => exact Story.passing_inOrder _ _
  | present source =>
    by_cases hmax : source.maxResults = 0
    · simp only [hmax]
      exact Story.passing_inOrder _ _
    · simp only [Nat.pos_of_ne_zero hmax, beq_eq_false_iff_ne.mpr hmax]
      exact Story.asking_inOrder fun _ => rfl

theorem chainStory_inOrder (d : Task.Draft) :
    (a.chainStory d).InOrder (chainPlan d.chainAction) := by
  unfold chainStory chainPlan
  split
  · exact Story.passing_inOrder _ _
  · exact Story.asking_inOrder fun _ => rfl

theorem draftedStory_inOrder (d : Task.Draft) :
    (a.draftedStory d).InOrder (chainPlan d.chainAction ++ [.prepare, .record]) :=
  (a.chainStory_inOrder d).andThen (Story.writing_inOrder a)

theorem reasoningStory_inOrder (r : Reasoning.Request) : (a.reasoningStory r).InOrder [.generate] :=
  Story.asking_inOrder fun _ => rfl

theorem requestedStory_inOrder (r : Reasoning.Request) :
    (a.requestedStory r).InOrder
      ([.generate] ++ (chainPlan r.chainAction ++ [.prepare, .record])) :=
  (a.reasoningStory_inOrder r).andThen fun reply => a.draftedStory_inOrder (draftFor r reply)

theorem attemptStory_inOrder (goal action address : String) :
    (a.attemptStory goal action address).InOrder (a.attemptPlan action) :=
  a.historyStory_inOrder.andThen fun _ => (a.knowledgeStory_inOrder goal action).andThen fun _ =>
    a.requestedStory_inOrder ⟨goal, action, address, _, _⟩

/-! ### How far a run has come -/

variable {a : Agent (StateM σ)} {goal action address : String} {s left : σ} {calls : List Call}
  {r : Option (Except Failure Task)}

theorem replyOf_eq_ok {reply : Reasoning.Reply}
    {answer : Except Reasoning.Failure Reasoning.Reply} (h : replyOf answer = .ok reply) :
    answer = .ok reply ∧ Text.saysNothing reply.reply = false := by
  cases answer with
  | error f => cases h
  | ok given =>
    unfold replyOf at h
    dsimp only at h
    split at h
    · cases h
    · rename_i hsays
      cases h
      exact ⟨rfl, Bool.eq_false_iff.mpr hsays⟩

/-- Before a chain action or a write, the backend has replied. -/
theorem attemptStory_replied (h : a.attemptStory goal action address s calls r left) {c : Call}
    (hc : c ∈ calls) (hkind : c.kind = .execute ∨ c.kind = .prepare ∨ c.kind = .record) :
    ∃ front history cards w reply between back,
      calls = front ++ .generate ⟨goal, action, address, history, cards⟩ w :: back ∧
      a.replyWithin w = .ok reply ∧ Text.saysNothing reply.reply = false ∧
      a.draftedStory (draftFor ⟨goal, action, address, history, cards⟩ reply) between back r left ∧
      c ∈ back := by
  have hhistory : c.kind ∉ a.historyPlan := by
    intro hmem
    rw [eq_of_mem_historyPlan hmem] at hkind
    exact absurd hkind (by decide)
  have hknowledge : c.kind ∉ a.knowledgePlan := by
    intro hmem
    rw [eq_of_mem_knowledgePlan hmem] at hkind
    exact absurd hkind (by decide)
  have hgenerate : c.kind ∉ [Call.Kind.generate] := by
    intro hmem
    rw [List.mem_singleton.mp hmem] at hkind
    exact absurd hkind (by decide)
  obtain ⟨past, history, _, _, rfl, -, hpast, hcpast⟩ :=
    h.went_of_mem a.historyStory_inOrder hc hhistory
  obtain ⟨told, cards, s', _, rfl, -, htold, hctold⟩ :=
    hpast.went_of_mem (a.knowledgeStory_inOrder goal action) hcpast hknowledge
  obtain ⟨_, reply, between, back, rfl, hreplied, hdrafted, hcback⟩ :=
    htold.went_of_mem (a.reasoningStory_inOrder _) hctold hgenerate
  obtain ⟨rfl, hreply, -⟩ := hreplied.calls_of_ok
  obtain ⟨hwithin, hsays⟩ := replyOf_eq_ok hreply
  exact ⟨past ++ told, history, cards, _, reply, between, back, by simp, hwithin, hsays, hdrafted,
    hcback⟩

/-- An executed action is that of the draft; a write comes after it, or the run has failed. -/
theorem draftedStory_executed {d : Task.Draft} (h : a.draftedStory d s calls r left)
    {action address : String} {w : Work (Except Chain.Failure Chain.Outcome)}
    (hc : .execute action address w ∈ calls) :
    d.chainAction ≠ "" ∧ action = d.chainAction ∧ address = d.address ∧
      ∃ back, calls = .execute action address w :: back ∧
        (r = none ∨ (∃ i, r = some (.error (Interruption.at .chain i))) ∨
          ∃ between, Story.Writing a (draftOf d (a.outcomeWithin w)) between back r left) := by
  have hwrites {d' : Task.Draft} {between : σ} {back : List Call}
      (hback : Story.Writing a d' between back r left) : .execute action address w ∉ back :=
    fun hmem => absurd ((Story.writing_inOrder a d').kind_mem hback hmem) (by simp [Call.kind])
  unfold draftedStory chainStory at h
  cases haction : d.chainAction.isEmpty with
  | true =>
    rw [haction] at h
    cases h with
    | abandoned h => cases h
    | failed h =>
      cases h
      exact absurd hc List.not_mem_nil
    | went h hrest =>
      cases h
      exact absurd hc (hwrites hrest)
  | false =>
    rw [haction] at h
    refine ⟨by simpa using haction, ?_⟩
    cases h with
    | abandoned h =>
      cases h
      cases List.mem_singleton.mp hc
      exact ⟨rfl, rfl, [], rfl, .inl rfl⟩
    | failed h =>
      generalize hr : (some (.error _) : Option (Except Failure Task.Draft)) = r at h
      cases h with
      | stopped i => exact absurd hc List.not_mem_nil
      | interrupted i =>
        cases hr
        cases List.mem_singleton.mp hc
        exact ⟨rfl, rfl, [], rfl, .inr (.inl ⟨i, rfl⟩)⟩
      | abandoned => cases hr
      | answered => cases hr
    | went h hrest =>
      obtain ⟨rfl, hdraft, rfl⟩ := h.calls_of_ok
      cases hdraft
      obtain heq | hmem := List.mem_cons.mp hc
      · cases heq
        exact ⟨rfl, rfl, _, rfl, .inr (.inr ⟨_, hrest⟩)⟩
      · exact absurd hmem (hwrites hrest)

/-- A write has the draft with the result of its chain action if there is one. -/
theorem draftedStory_written {d : Task.Draft} (h : a.draftedStory d s calls r left) {c : Call}
    (hc : c ∈ calls) (hkind : c.kind = .prepare ∨ c.kind = .record) :
    ∃ d' front between back, calls = front ++ back ∧ Story.Writing a d' between back r left ∧
      c ∈ back ∧ ((d.chainAction = "" ∧ front = [] ∧ d' = d) ∨
        (d.chainAction ≠ "" ∧ ∃ w, front = [.execute d.chainAction d.address w] ∧
          d' = draftOf d (a.outcomeWithin w))) := by
  have hchain : c.kind ∉ chainPlan d.chainAction := by
    intro hmem
    rw [eq_of_mem_chainPlan hmem] at hkind
    exact absurd hkind (by decide)
  obtain ⟨front, d', between, back, rfl, hfirst, hwriting, hc⟩ :=
    h.went_of_mem (a.chainStory_inOrder d) hc hchain
  refine ⟨d', front, between, back, rfl, hwriting, hc, ?_⟩
  unfold chainStory at hfirst
  cases haction : d.chainAction.isEmpty with
  | true =>
    rw [haction] at hfirst
    cases hfirst
    exact .inl ⟨by simpa using haction, rfl, rfl⟩
  | false =>
    rw [haction] at hfirst
    obtain ⟨rfl, hdraft, rfl⟩ := hfirst.calls_of_ok
    cases hdraft
    exact .inr ⟨by simpa using haction, _, rfl, rfl⟩

/-- No call is made twice. -/
theorem attemptStory_unique (h : a.attemptStory goal action address s calls r left) {c c' : Call}
    (hc : c ∈ calls) (hc' : c' ∈ calls) (hkind : c.kind = c'.kind) : c = c' :=
  List.inj_on_of_nodup_map (((a.attemptStory_inOrder goal action address).order h).sublist.nodup
    (a.attemptPlan_nodup action)) hc hc' hkind

/-- The answer of a write is the result of the run. -/
theorem attemptStory_recorded (h : a.attemptStory goal action address s calls r left)
    {d : Task.Draft} {answer : Except Ledger.Failure Task} (hc : .record d answer ∈ calls) :
    r = some (answer.mapError .storage) := by
  obtain ⟨_, _, _, _, _, _, _, -, -, -, hdrafted, hcback⟩ :=
    attemptStory_replied h hc (.inr (.inr rfl))
  obtain ⟨_, _, _, _, -, hwriting, hcwrite, -⟩ := draftedStory_written hdrafted hcback (.inr rfl)
  cases hwriting with
  | stopped i => exact absurd hcwrite List.not_mem_nil
  | abandoned => exact absurd hcwrite (by simp)
  | refused _ => exact absurd hcwrite (by simp)
  | recorded _ =>
    rw [List.mem_cons, List.mem_singleton] at hcwrite
    cases hcwrite.resolve_left nofun
    rfl

/-- The result of a run is that of its write. -/
def IsWritten (calls : List Call) (r : Except Failure Task) : Prop :=
  (∃ w f, .prepare w ∈ calls ∧ w.yields = .error f ∧ r = .error (.storage f)) ∨
    ∃ d answer, .record d answer ∈ calls ∧ r = answer.mapError .storage

theorem IsWritten.mono {more : List Call} {r : Except Failure Task} (h : IsWritten calls r)
    (hmore : ∀ c ∈ calls, c ∈ more) : IsWritten more r := by
  obtain ⟨w, f, hw, hf, hr⟩ | ⟨d, answer, hanswer, hr⟩ := h
  · exact .inl ⟨w, f, hmore _ hw, hf, hr⟩
  · exact .inr ⟨d, answer, hmore _ hanswer, hr⟩

theorem Story.Writing.isWritten {d : Task.Draft} {r : Except Failure Task}
    (h : Story.Writing a d s calls (some r) left) (hcompletes : Completes r) :
    IsWritten calls r := by
  generalize hr : some r = result at h
  cases h with
  | stopped i =>
    cases hr
    exact absurd hcompletes (not_completes_at .persist i)
  | abandoned => cases hr
  | refused hf => exact .inl ⟨_, _, List.mem_cons_self, hf, Option.some.inj hr⟩
  | recorded _ => exact .inr ⟨d, _, List.mem_cons_of_mem _ List.mem_cons_self, Option.some.inj hr⟩

/-- **The chain action is executed after a reply**, with the run's action and address, and a run
that completes then comes to its write. -/
theorem attemptStory_executed (h : a.attemptStory goal action address s calls r left)
    {action' address' : String} {w : Work (Except Chain.Failure Chain.Outcome)}
    (hc : .execute action' address' w ∈ calls) :
    action ≠ "" ∧ action' = action ∧ address' = address ∧
      (∃ front q w' reply back,
        calls = front ++ .generate q w' :: .execute action' address' w :: back ∧
        a.replyWithin w' = .ok reply ∧ Text.saysNothing reply.reply = false) ∧
      ∀ r', r = some r' → Completes r' → IsWritten calls r' := by
  obtain ⟨front, history, cards, w', reply, _, _, rfl, hreply, hsays, hdrafted, hcback⟩ :=
    attemptStory_replied h hc (.inl rfl)
  obtain ⟨haction, rfl, rfl, back, rfl, hend⟩ := draftedStory_executed hdrafted hcback
  refine ⟨haction, rfl, rfl, ⟨front, _, w', reply, back, rfl, hreply, hsays⟩, ?_⟩
  rintro r' rfl hcompletes
  obtain hnone | ⟨i, hstopped⟩ | ⟨between, hwriting⟩ := hend
  · cases hnone
  · cases hstopped
    exact absurd hcompletes (not_completes_at .chain i)
  · exact (hwriting.isWritten hcompletes).mono fun c hc => by simp [hc]

/-- **A run has a task exactly when its write gave it.** -/
theorem attemptStory_ok (h : a.attemptStory goal action address s calls r left) (t : Task) :
    r = some (.ok t) ↔ ∃ d, .record d (.ok t) ∈ calls := by
  constructor
  · rintro rfl
    have hkind : Call.Kind.record ∈ calls.map Call.kind := by
      rw [(a.attemptStory_inOrder goal action address).whole h]
      simp [attemptPlan]
    obtain ⟨c, hc, hkind⟩ := List.mem_map.mp hkind
    cases c with
    | record d answer =>
      have hanswer := attemptStory_recorded h hc
      cases answer with
      | error f => cases hanswer
      | ok u =>
        cases hanswer
        exact ⟨d, hc⟩
    | _ => cases hkind
  · rintro ⟨d, hc⟩
    exact attemptStory_recorded h hc

/-! ### What is left alone -/

/-- A story in which a view shows the same as long as no write has begun. -/
def Story.Spares (view : σ → β) (story : Story σ α) : Prop :=
  ∀ ⦃s calls r left⦄, story s calls r left → (∀ c ∈ calls, c.kind ≠ .prepare) → view left = view s

section Views

variable {γ : Type} {view : σ → γ}

theorem Story.passing_spares (step : Step) (a : α) : Story.Spares view (Story.Passing step a) := by
  intro s calls r left h _
  cases h <;> rfl

theorem Story.asking_spares {step : Step} {call : β → Call} {work : StateM σ β}
    {answer : β → Except Failure α} (hwork : ∀ s, view (work s).2 = view s) :
    Story.Spares view (Story.Asking step call work answer) := by
  intro s calls r left h _
  cases h with
  | stopped i => rfl
  | _ => exact hwork s

theorem Story.writing_spares (a : Agent (StateM σ)) (d : Task.Draft) :
    Story.Spares view (Story.Writing a d) := by
  intro s calls r left h hcalls
  cases h with
  | stopped i => rfl
  | _ => exact absurd rfl (hcalls _ List.mem_cons_self)

theorem Story.Spares.andThen {first : Story σ α} {next : α → Story σ β}
    (hfirst : first.Spares view) (hnext : ∀ a, (next a).Spares view) :
    Story.Spares view (first.AndThen next) := by
  intro s calls r left h hcalls
  cases h with
  | abandoned h => exact hfirst h hcalls
  | failed h => exact hfirst h hcalls
  | went h hrest =>
    have hfront := hfirst h fun c hc => hcalls c (List.mem_append_left _ hc)
    have hback := hnext _ hrest fun c hc => hcalls c (List.mem_append_right _ hc)
    exact hback.trans hfront

theorem Keeps.knowledgeStory_spares (h : a.Keeps view) (goal action : String) :
    (a.knowledgeStory goal action).Spares view := by
  have hlookup := h.lookup goal action
  unfold knowledgeStory
  cases hknowledge : a.knowledge with
  | absent => exact Story.passing_spares _ _
  | present source =>
    rw [hknowledge] at hlookup
    by_cases hmax : source.maxResults = 0
    · simp only [hmax]
      exact Story.passing_spares _ _
    · simp only [beq_eq_false_iff_ne.mpr hmax]
      refine Story.asking_spares fun s => ?_
      rw [← hlookup s, lookup_present hmax]

theorem Keeps.historyStory_spares (h : a.Keeps view) : a.historyStory.Spares view := by
  unfold historyStory
  split
  · exact Story.passing_spares _ _
  · exact Story.asking_spares (h.recent _)

theorem Keeps.reasoningStory_spares (h : a.Keeps view) (r : Reasoning.Request) :
    (a.reasoningStory r).Spares view := Story.asking_spares (h.generate r)

theorem Keeps.chainStory_spares (h : a.Keeps view) (d : Task.Draft) :
    (a.chainStory d).Spares view := by
  unfold chainStory
  split
  · exact Story.passing_spares _ _
  · exact Story.asking_spares (h.execute _ _)

/-- **Nothing is stored before a write has begun.** -/
theorem Keeps.attemptStory_spares (h : a.Keeps view) (goal action address : String) :
    (a.attemptStory goal action address).Spares view :=
  h.historyStory_spares.andThen fun _ => (h.knowledgeStory_spares goal action).andThen fun _ =>
    (h.reasoningStory_spares _).andThen fun _ =>
      (h.chainStory_spares _).andThen (Story.writing_spares a)

end Views

end Order

end ChainAgent.Agent
