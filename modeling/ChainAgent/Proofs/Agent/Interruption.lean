import ChainAgent.Agent.Rehearsal
import ChainAgent.Proofs.Agent.Steps

/-! Runs that are interrupted.

`legs` lists the steps of an uninterrupted run, each with the instant of its end and the state after
it. The limit of a run is the earlier of its cancellation and its deadline. If all legs end before
the limit, the run is the uninterrupted run, even if the limit falls into the last write. Otherwise
the run ends at its limit, or at its start if that comes later, at the first leg that would not have
ended before: nothing after that leg has begun (`run_interrupted`). A run that begins when both have
passed is cancelled, even if its deadline passed first (`run_begun_late`). -/
namespace ChainAgent.Agent

open Time (Span Work Course)

/-- A step of an uninterrupted run. -/
structure Leg (σ : Type) where
  step : Step
  /-- The instant of its end; none if it never ends. -/
  ended : Option Span
  /-- The state after it. -/
  state : σ

section Legs

variable {σ α β : Type}

/-- A step as a leg, and the legs after it if the step succeeds. -/
def followed (step : Step) (x : Attempt (StateM σ) α) (next : α → Span → σ → List (Leg σ))
    (t : Span) (s : σ) : List (Leg σ) :=
  match outcome x t s with
  | (some (.ok a, e), s') => ⟨step, some e, s'⟩ :: next a e s'
  | (some (.error _, e), s') => [⟨step, some e, s'⟩]
  | (none, s') => [⟨step, none, s'⟩]

theorem followed_eq_cons (step : Step) (x : Attempt (StateM σ) α)
    (next : α → Span → σ → List (Leg σ)) (t : Span) (s : σ) :
    ∃ later, followed step x next t s =
      ⟨step, ended (outcome x t s), (outcome x t s).2⟩ :: later := by
  unfold followed
  rcases outcome x t s with ⟨_ | ⟨_ | a, e⟩, s'⟩
  · exact ⟨[], rfl⟩
  · exact ⟨[], rfl⟩
  · exact ⟨next a e s', rfl⟩

section Parts

variable (a : Agent (StateM σ))

/-- The leg of the chain action, if there is one. -/
def chainLegs (d : Task.Draft) : Span → σ → List (Leg σ) :=
  if d.chainAction.isEmpty then fun _ _ => []
  else followed .chain (a.executeChain {} d) fun _ _ _ => []

/-- The leg of reasoning and those after it. -/
def reasoningLegs (r : Reasoning.Request) : Span → σ → List (Leg σ) :=
  followed .reasoning (a.reason {} r) fun reply =>
    let draft : Task.Draft := {goal := r.goal, chainAction := r.chainAction, address := r.address}
    a.chainLegs (draft.withReasoning reply.thought reply.reply)

/-- The leg of the lookup, if there is one, and those after it. -/
def knowledgeLegs (goal action address : String) (history : List Reasoning.PastTask) :
    Span → σ → List (Leg σ) :=
  if a.knowledge.isActive then
    followed .knowledge (a.lookupKnowledge {} goal action) fun cards =>
      a.reasoningLegs ⟨goal, action, address, history, cards⟩
  else a.reasoningLegs ⟨goal, action, address, history, []⟩

def attemptLegs (goal action address : String) : Span → σ → List (Leg σ) :=
  followed .history (a.recallHistory {}) (a.knowledgeLegs goal action address)

/-- The legs of a run from an instant on: history, the lookup if there is a source, reasoning, and
the chain action if there is one. Each begins when the one before it has ended. -/
def legs (start : Span) (goal action address : String) (s : σ) : List (Leg σ) :=
  if Text.saysNothing goal then []
  else a.attemptLegs (Text.trim goal) (Text.trim action) (Text.trim address) start s

end Parts

/-! ### Under a limit -/

/-- A part of a run under a limit compared with the same part without one, and with its legs. -/
structure Agrees (limit : Span) (i : Interruption) (bound free : Attempt (StateM σ) α)
    (legs : Span → σ → List (Leg σ)) : Prop where
  in_time : ∀ {t : Span} {s : σ}, t.nanos < limit.nanos →
    (∀ l ∈ legs t s, instant l.ended < limit.nanos) → outcome bound t s = outcome free t s
  late : ∀ {t : Span} {s : σ} {early : List (Leg σ)} {l : Leg σ} {later : List (Leg σ)},
    t.nanos < limit.nanos → legs t s = early ++ l :: later →
    (∀ e ∈ early, instant e.ended < limit.nanos) → limit.nanos ≤ instant l.ended →
    outcome bound t s = (some (.error (i.at l.step), limit), l.state)

variable {ctx : Context} {limit : Span} {i : Interruption}

/-- A step that follows its context, and then a part of a run that agrees with its legs. -/
theorem Agrees.bind {step : Step} {bound free : Attempt (StateM σ) α}
    {f g : α → Attempt (StateM σ) β} {next : α → Span → σ → List (Leg σ)}
    (hstep : Follows limit i step bound free) (hnext : ∀ a, Agrees limit i (f a) (g a) (next a)) :
    Agrees limit i (bound >>= f) (free >>= g) (followed step free next) := by
  constructor
  · intro t s ht hlegs
    have hhead : instant (ended (outcome free t s)) < limit.nanos := by
      obtain ⟨later, hcons⟩ := followed_eq_cons step free next t s
      rw [hcons] at hlegs
      exact hlegs _ List.mem_cons_self
    unfold followed at hlegs
    rw [outcome_bind, outcome_bind, hstep.in_time ht hhead]
    rcases hfree : outcome free t s with ⟨_ | ⟨_ | a, e⟩, s'⟩
    · rfl
    · rfl
    · rw [hfree] at hlegs hhead
      have he : e.nanos < limit.nanos := by simpa [ended, instant] using hhead
      exact (hnext a).in_time he fun l hl => hlegs l (List.mem_cons_of_mem _ hl)
  · intro t s early l later ht hlegs hearly hl
    cases early with
    | nil =>
      obtain ⟨rest, hcons⟩ := followed_eq_cons step free next t s
      obtain ⟨rfl, -⟩ := List.cons.inj (hcons.symm.trans hlegs)
      rw [outcome_bind, hstep.late ht hl]
    | cons first early =>
      unfold followed at hlegs
      have hfirst := hearly first List.mem_cons_self
      rcases hfree : outcome free t s with ⟨_ | ⟨_ | a, e⟩, s'⟩
      · rw [hfree] at hlegs
        simp at hlegs
      · rw [hfree] at hlegs
        simp at hlegs
      · rw [hfree] at hlegs
        obtain ⟨rfl, hrest⟩ := List.cons.inj hlegs
        have he : e.nanos < limit.nanos := by simpa [instant] using hfirst
        have hhead : instant (ended (outcome free t s)) < limit.nanos := by
          rw [hfree]
          exact hfirst
        rw [outcome_bind, hstep.in_time ht hhead, hfree]
        exact (hnext a).late he hrest (fun e he => hearly e (List.mem_cons_of_mem _ he)) hl

/-- A write that begins before the limit is not interrupted. -/
theorem persist_agrees (a : Agent (StateM σ)) (h : ctx.Limits limit i) (d : Task.Draft) :
    Agrees limit i (a.persist ctx d) (a.persist {} d) fun _ _ => [] := by
  constructor
  · intro t s ht _
    unfold persist
    rw [outcome_bind, outcome_bind, outcome_checkpoint, outcome_checkpoint, h.check ht, h.awaited]
    rfl
  · intro t s early l later _ hlegs
    exact absurd hlegs.symm (by simp)

theorem chain_agrees (a : Agent (StateM σ)) (h : ctx.Limits limit i) (d : Task.Draft) :
    Agrees limit i (a.executeChain ctx d >>= a.persist ctx) (a.executeChain {} d >>= a.persist {})
      (a.chainLegs d) := by
  unfold chainLegs
  cases hd : d.chainAction.isEmpty with
  | true =>
    have hskip (ctx : Context) : a.executeChain ctx d = pure d := by
      unfold executeChain
      rw [hd]
      rfl
    rw [hskip, hskip, pure_bind, pure_bind]
    exact a.persist_agrees h d
  | false => exact .bind (a.executeChain_follows h hd) (a.persist_agrees h)

theorem knowledge_agrees (a : Agent (StateM σ)) (h : ctx.Limits limit i)
    {f g : List Knowledge.Card → Attempt (StateM σ) α} {goal action address : String}
    {history : List Reasoning.PastTask}
    (hreasoning : ∀ cards, Agrees limit i (f cards) (g cards)
      (a.reasoningLegs ⟨goal, action, address, history, cards⟩)) :
    Agrees limit i (a.lookupKnowledge ctx goal action >>= f)
      (a.lookupKnowledge {} goal action >>= g) (a.knowledgeLegs goal action address history) := by
  unfold knowledgeLegs
  cases hactive : a.knowledge.isActive with
  | true => exact .bind (a.lookupKnowledge_follows h goal action) hreasoning
  | false =>
    have hskip (ctx : Context) : a.lookupKnowledge ctx goal action = pure [] := by
      unfold lookupKnowledge
      rw [hactive]
      rfl
    rw [hskip, hskip, pure_bind, pure_bind]
    exact hreasoning []

theorem attempt_agrees (a : Agent (StateM σ)) (h : ctx.Limits limit i)
    (goal action address : String) :
    Agrees limit i (a.attempt ctx goal action address) (a.attempt {} goal action address)
      (a.attemptLegs goal action address) := by
  refine .bind (a.recallHistory_follows h) fun history => a.knowledge_agrees h fun cards => ?_
  exact .bind (a.reason_follows h _) fun reply => a.chain_agrees h _

/-! ### What a run leaves alone -/

/-- The collaborators before the write leave what a view shows unchanged. -/
structure Keeps (a : Agent (StateM σ)) (view : σ → β) : Prop where
  recent : ∀ depth s, view (a.ledger.recent depth s).2 = view s
  lookup : ∀ goal action s, view (a.knowledge.lookup goal action s).2 = view s
  generate : ∀ r s, view (a.generate r s).2 = view s
  execute : ∀ action address s, view (a.execute action address s).2 = view s

/-- A step that leaves what a view shows unchanged. -/
def LeavesAlone (view : σ → β) (x : Attempt (StateM σ) α) : Prop :=
  ∀ t s, view (outcome x t s).2 = view s

section Views

variable {view : σ → β}

theorem LeavesAlone.during {step : Step} {work : StateM σ (Work α)}
    (h : ∀ s, view (work s).2 = view s) : LeavesAlone view (during {} step work) := by
  intro t s
  rw [outcome_during_free]
  exact h s

theorem LeavesAlone.bind_immediate {γ : Type} {x : Attempt (StateM σ) α}
    {f : α → Attempt (StateM σ) γ} (h : LeavesAlone view x) (hf : ∀ a, Immediate (f a)) :
    LeavesAlone view (x >>= f) := by
  intro t s
  rw [(Agent.bind_immediate hf x t s).1]
  exact h t s

theorem LeavesAlone.of_immediate {x : Attempt (StateM σ) α} (hx : Immediate x) :
    LeavesAlone view x := by
  intro t s
  obtain ⟨r, hr⟩ := hx
  rw [hr]

theorem followed_keeps {step : Step} {x : Attempt (StateM σ) α}
    {next : α → Span → σ → List (Leg σ)} (hx : LeavesAlone view x)
    (hnext : ∀ a t s, ∀ l ∈ next a t s, view l.state = view s) (t : Span) (s : σ) :
    ∀ l ∈ followed step x next t s, view l.state = view s := by
  intro l hl
  have hstate := hx t s
  unfold followed at hl
  rcases hfree : outcome x t s with ⟨_ | ⟨_ | a, e⟩, s'⟩
  · rw [hfree] at hl hstate
    rw [List.mem_singleton.mp hl]
    exact hstate
  · rw [hfree] at hl hstate
    rw [List.mem_singleton.mp hl]
    exact hstate
  · rw [hfree] at hl hstate
    obtain rfl | hrest := List.mem_cons.mp hl
    · exact hstate
    · exact (hnext a e s' l hrest).trans hstate

section Steps

variable {a : Agent (StateM σ)}

theorem Keeps.history (h : a.Keeps view) : LeavesAlone view (a.recallHistory {}) := by
  rw [recallHistory_eq]
  intro t s
  rw [outcome_bind, outcome_checkpoint]
  show view (outcome (if a.options.memoryDepth == 0 then _ else _) t s).2 = view s
  split
  · exact LeavesAlone.of_immediate (.pure []) t s
  · exact (LeavesAlone.during (h.recent _)).bind_immediate (recalled_immediate _) t s

theorem Keeps.knowledge (h : a.Keeps view) (goal action : String) :
    LeavesAlone view (a.lookupKnowledge {} goal action) := by
  rw [lookupKnowledge_eq]
  split
  · exact (LeavesAlone.during (h.lookup goal action)).bind_immediate lookedUp_immediate
  · exact .of_immediate (.pure [])

theorem Keeps.reasoning (h : a.Keeps view) (r : Reasoning.Request) :
    LeavesAlone view (a.reason {} r) := by
  have hwork (s : σ) : view (a.reasoningWork r s).2 = view s := by
    rw [reasoningWork_state]
    exact h.generate r s
  rw [reason_eq]
  exact (LeavesAlone.during hwork).bind_immediate replied_immediate

theorem Keeps.chain (h : a.Keeps view) {d : Task.Draft} (hd : d.chainAction.isEmpty = false) :
    LeavesAlone view (a.executeChain {} d) := by
  have hwork (budget : Span) (s : σ) : view (a.chainWork d budget s).2 = view s := by
    rw [chainWork_state]
    exact h.execute d.chainAction d.address s
  intro t s
  rw [outcome_executeChain a {} hd]
  exact (LeavesAlone.during (hwork _)).bind_immediate (concluded_immediate d) t s

theorem Keeps.chainLegs (h : a.Keeps view) (d : Task.Draft) (t : Span) (s : σ) :
    ∀ l ∈ a.chainLegs d t s, view l.state = view s := by
  unfold Agent.chainLegs
  cases hd : d.chainAction.isEmpty with
  | true => exact fun l hl => absurd hl List.not_mem_nil
  | false => exact followed_keeps (h.chain hd) (fun _ _ _ l hl => absurd hl List.not_mem_nil) t s

theorem Keeps.reasoningLegs (h : a.Keeps view) (r : Reasoning.Request) (t : Span) (s : σ) :
    ∀ l ∈ a.reasoningLegs r t s, view l.state = view s :=
  followed_keeps (h.reasoning r) (fun _ t s => h.chainLegs _ t s) t s

theorem Keeps.knowledgeLegs (h : a.Keeps view) (goal action address : String)
    (history : List Reasoning.PastTask) (t : Span) (s : σ) :
    ∀ l ∈ a.knowledgeLegs goal action address history t s, view l.state = view s := by
  unfold Agent.knowledgeLegs
  split
  · exact followed_keeps (h.knowledge goal action) (fun _ t s => h.reasoningLegs _ t s) t s
  · exact h.reasoningLegs _ t s

theorem Keeps.legs (h : a.Keeps view) (start : Span) (goal action address : String) (s : σ) :
    ∀ l ∈ a.legs start goal action address s, view l.state = view s := by
  unfold Agent.legs
  split
  · exact fun l hl => absurd hl List.not_mem_nil
  · exact followed_keeps h.history (fun _ t s => h.knowledgeLegs _ _ _ _ t s) _ s

end Steps

end Views

/-! ### Limits of runs -/

/-- The earlier of a cancellation and a deadline, or never. -/
def limitOf (cancelAt deadline : Option Span) : ℕ∞ :=
  if instant cancelAt ≤ instant deadline then instant cancelAt else instant deadline

/-- What ends a run: the cancellation if it has passed at the start or the deadline does not come
before it, and the deadline otherwise. -/
def causeOf (start : Span) (cancelAt deadline : Option Span) : Interruption :=
  if instant cancelAt ≤ start.nanos ∨ instant cancelAt ≤ instant deadline then .cancelled
  else .deadlineExceeded

theorem eq_none_of_instant {e : Option Span} (h : instant e = ⊤) : e = none := by
  cases e with
  | none => rfl
  | some e => exact absurd h (ENat.natCast_ne_top _)

theorem limitOf_eq_min (cancelAt deadline : Option Span) :
    limitOf cancelAt deadline = min (instant cancelAt) (instant deadline) :=
  (min_def _ _).symm

theorem limitOf_eq_top {cancelAt deadline : Option Span} (h : limitOf cancelAt deadline = ⊤) :
    cancelAt = none ∧ deadline = none := by
  rw [limitOf_eq_min, min_eq_top] at h
  exact ⟨eq_none_of_instant h.1, eq_none_of_instant h.2⟩

/-- A run is interrupted by what comes first, if it begins before its limit. -/
theorem causeOf_of_lt {start : Span} {cancelAt deadline : Option Span}
    (h : start.nanos < limitOf cancelAt deadline) :
    causeOf start cancelAt deadline =
      if instant cancelAt ≤ instant deadline then .cancelled else .deadlineExceeded := by
  rw [limitOf_eq_min, lt_min_iff] at h
  simp only [causeOf, not_le.mpr h.1, false_or]

theorem exists_limit {start : Span} {cancelAt deadline : Option Span}
    (hlimit : limitOf cancelAt deadline ≠ ⊤) (hbegun : start.nanos < limitOf cancelAt deadline) :
    ∃ limit : Span, limitOf cancelAt deadline = limit.nanos ∧
      Context.Limits {start := start, cancelAt := cancelAt, deadline := deadline} limit
        (causeOf start cancelAt deadline) := by
  rw [causeOf_of_lt hbegun]
  unfold limitOf at *
  cases cancelAt with
  | none =>
    cases deadline with
    | none => exact absurd rfl hlimit
    | some d =>
      have hlt : ¬ instant none ≤ instant (some d) := not_le.mpr (ENat.natCast_lt_top _)
      rw [if_neg hlt, if_neg hlt]
      exact ⟨d, rfl, rfl, rfl⟩
  | some c =>
    cases deadline with
    | none =>
      have hle : instant (some c) ≤ instant none := le_top
      rw [if_pos hle, if_pos hle]
      exact ⟨c, rfl, rfl, rfl⟩
    | some d =>
      by_cases hcd : c.nanos ≤ d.nanos
      · have hle : instant (some c) ≤ instant (some d) := Nat.cast_le.mpr hcd
        rw [if_pos hle, if_pos hle]
        exact ⟨c, rfl, if_pos hcd, rfl⟩
      · have hlt : ¬ instant (some c) ≤ instant (some d) := fun h => hcd (Nat.cast_le.mp h)
        rw [if_neg hlt, if_neg hlt]
        exact ⟨d, rfl, if_neg hcd, rfl⟩

theorem isCancelled_iff {ctx : Context} {t : Span} :
    ctx.isCancelled t = true ↔ instant ctx.cancelAt ≤ t.nanos := by
  unfold Context.isCancelled
  cases ctx.cancelAt with
  | none => simp [instant]
  | some c => simp [instant]

theorem isExpired_iff {ctx : Context} {t : Span} :
    ctx.isExpired t = true ↔ instant ctx.deadline ≤ t.nanos := by
  unfold Context.isExpired
  cases ctx.deadline with
  | none => simp [instant]
  | some d => simp [instant]

/-- The first check of a run that begins at its limit or later interrupts it. -/
theorem check_start {start : Span} {cancelAt deadline : Option Span}
    (h : limitOf cancelAt deadline ≤ start.nanos) :
    Context.check {start := start, cancelAt := cancelAt, deadline := deadline} start =
      some (causeOf start cancelAt deadline) := by
  rw [limitOf_eq_min, min_le_iff] at h
  unfold Context.check causeOf
  by_cases hcancel : instant cancelAt ≤ start.nanos
  · rw [if_pos (isCancelled_iff.mpr hcancel), if_pos (.inl hcancel)]
  · have hdeadline := h.resolve_left hcancel
    have hfirst : ¬ instant cancelAt ≤ instant deadline := fun h => hcancel (h.trans hdeadline)
    rw [if_neg (mt isCancelled_iff.mp hcancel), if_pos (isExpired_iff.mpr hdeadline),
      if_neg (not_or.mpr ⟨hcancel, hfirst⟩)]

/-- If a leg does not end before a limit, then there is a first one. -/
theorem exists_first_late {legs : List (Leg σ)} {limit : ℕ∞} {l : Leg σ} (hl : l ∈ legs)
    (hlate : limit ≤ instant l.ended) :
    ∃ early l later, legs = early ++ l :: later ∧ (∀ e ∈ early, instant e.ended < limit) ∧
      limit ≤ instant l.ended := by
  induction legs with
  | nil => exact absurd hl List.not_mem_nil
  | cons first rest ih =>
    by_cases hfirst : limit ≤ instant first.ended
    · exact ⟨[], first, rest, rfl, fun e he => absurd he List.not_mem_nil, hfirst⟩
    · obtain rfl | hrest := List.mem_cons.mp hl
      · exact absurd hlate hfirst
      · obtain ⟨early, l, later, rfl, hearly, hlate⟩ := ih hrest
        refine ⟨first :: early, l, later, rfl, fun e he => ?_, hlate⟩
        obtain rfl | he := List.mem_cons.mp he
        · exact not_le.mp hfirst
        · exact hearly e he

/-! ### Runs -/

section Goals

variable (a : Agent (StateM σ)) {goal : String} (action address : String) (s : σ)

theorem legs_of_blank (start : Span) (hgoal : Text.saysNothing goal = true) :
    a.legs start goal action address s = [] := by
  unfold legs
  rw [hgoal]
  rfl

theorem run_of_blank (hgoal : Text.saysNothing goal = true) (ctx : Context) :
    (a.run ctx goal action address).run s =
      (some (.error (.invalidInput "goal must not be empty"), ctx.start), s) := by
  unfold run course
  rw [hgoal]
  rfl

theorem legs_of_goal (start : Span) (hgoal : Text.saysNothing goal = false) :
    a.legs start goal action address s =
      a.attemptLegs (Text.trim goal) (Text.trim action) (Text.trim address) start s := by
  unfold legs
  rw [hgoal]
  rfl

theorem run_of_goal (hgoal : Text.saysNothing goal = false) (ctx : Context) :
    (a.run ctx goal action address).run s =
      outcome (a.attempt ctx (Text.trim goal) (Text.trim action) (Text.trim address)) ctx.start s := by
  unfold run course
  rw [hgoal]
  rfl

end Goals

/-- A run that is interrupted by its first check makes no call. -/
theorem attempt_over (a : Agent (StateM σ)) {ctx : Context} {i : Interruption} {t : Span}
    (h : ctx.check t = some i) (goal action address : String) (s : σ) :
    outcome (a.attempt ctx goal action address) t s = (some (.error (i.at .history), t), s) := by
  unfold attempt
  rw [outcome_bind, recallHistory_eq, outcome_bind, outcome_checkpoint, h]

/-- The first leg does not end before it begins. -/
theorem le_ended_recallHistory (a : Agent (StateM σ)) (t : Span) (s : σ) :
    t.nanos ≤ instant (ended (outcome (a.recallHistory {}) t s)) := by
  have hchecked : outcome (a.recallHistory {}) t s =
      outcome (if a.options.memoryDepth == 0 then pure []
        else during {} .history (a.ledger.recent a.options.memoryDepth) >>=
          recalled a.options.memoryDepth) t s := by
    rw [recallHistory_eq, outcome_bind, outcome_checkpoint]
    rfl
  rw [hchecked]
  split
  · exact le_refl _
  · rw [(bind_immediate (recalled_immediate _) _ t s).2, ended_during_free]
    cases (a.ledger.recent a.options.memoryDepth s).1.takes with
    | none => exact le_top
    | some d => exact Nat.cast_le.mpr (Nat.le_add_right t.nanos d.nanos)

/-- The first leg is history. -/
theorem attemptLegs_eq_cons (a : Agent (StateM σ)) (goal action address : String) (t : Span)
    (s : σ) : ∃ l later, a.attemptLegs goal action address t s = l :: later ∧ l.step = .history ∧
      t.nanos ≤ instant l.ended := by
  obtain ⟨later, hcons⟩ := followed_eq_cons .history (a.recallHistory {})
    (a.knowledgeLegs goal action address) t s
  exact ⟨_, later, hcons, rfl, a.le_ended_recallHistory t s⟩

/-- **A run completes before its limit, or ends at it.** If every leg of the run without a
cancellation and a deadline ends before both, the run is that run. Otherwise it ends at the earlier
of them, or at its start if that comes later, at the first leg that would not have ended before: the
state is the one after that leg, and the first state if the run was interrupted by its first
check. -/
theorem run_interrupted (a : Agent (StateM σ)) (start : Span) (cancelAt deadline : Option Span)
    (goal action address : String) (s : σ) :
    ((∀ l ∈ a.legs start goal action address s, instant l.ended < limitOf cancelAt deadline) ∨
        limitOf cancelAt deadline = ⊤ →
      (a.run {start := start, cancelAt := cancelAt, deadline := deadline} goal action address).run s =
        (a.run {start := start} goal action address).run s) ∧
    ((∃ l ∈ a.legs start goal action address s, limitOf cancelAt deadline ≤ instant l.ended) →
        limitOf cancelAt deadline ≠ ⊤ →
      ∃ (early : List (Leg σ)) (l : Leg σ) (later : List (Leg σ)) (limit : Span) (left : σ),
        a.legs start goal action address s = early ++ l :: later ∧
        (∀ e ∈ early, instant e.ended < limitOf cancelAt deadline) ∧
        limitOf cancelAt deadline ≤ instant l.ended ∧
        max (start.nanos : ℕ∞) (limitOf cancelAt deadline) = limit.nanos ∧
        (a.run {start := start, cancelAt := cancelAt, deadline := deadline} goal action address).run s =
          (some (.error ((causeOf start cancelAt deadline).at l.step), limit), left) ∧
        left = (if limitOf cancelAt deadline ≤ start.nanos then s else l.state) ∧
        ∀ {β : Type} (view : σ → β), a.Keeps view → view left = view s) := by
  cases hgoal : Text.saysNothing goal with
  | true =>
    rw [a.run_of_blank action address s hgoal, a.run_of_blank action address s hgoal]
    refine ⟨fun _ => rfl, ?_⟩
    intro ⟨l, hl, _⟩
    rw [a.legs_of_blank action address s start hgoal] at hl
    exact absurd hl List.not_mem_nil
  | false =>
    have hlegs := a.legs_of_goal action address s start hgoal
    rw [a.run_of_goal action address s hgoal, a.run_of_goal action address s hgoal, hlegs]
    obtain ⟨first, rest, hcons, hhistory, hbegins⟩ := a.attemptLegs_eq_cons (Text.trim goal)
      (Text.trim action) (Text.trim address) start s
    constructor
    · intro hbefore
      by_cases hnever : limitOf cancelAt deadline = ⊤
      · obtain ⟨rfl, rfl⟩ := limitOf_eq_top hnever
        rfl
      · have hall := hbefore.resolve_right hnever
        have hbegun : start.nanos < limitOf cancelAt deadline :=
          hbegins.trans_lt (hall first (hcons ▸ List.mem_cons_self))
        obtain ⟨limit, hlimit, hctx⟩ := exists_limit hnever hbegun
        rw [hlimit] at hall hbegun
        exact (a.attempt_agrees hctx _ _ _).in_time (Nat.cast_lt.mp hbegun) hall
    · intro ⟨l, hl, hlate⟩ hends
      by_cases hbegun : start.nanos < limitOf cancelAt deadline
      · obtain ⟨limit, hlimit, hctx⟩ := exists_limit hends hbegun
        obtain ⟨early, l, later, hsplit, hearly, hlate⟩ := exists_first_late hl hlate
        refine ⟨early, l, later, limit, l.state, hsplit, hearly, hlate,
          (max_eq_right hbegun.le).trans hlimit, ?_, (if_neg (not_le.mpr hbegun)).symm, ?_⟩
        · rw [hlimit] at hearly hlate hbegun
          exact (a.attempt_agrees hctx _ _ _).late (Nat.cast_lt.mp hbegun) hsplit hearly hlate
        · intro β view hkeeps
          refine hkeeps.legs start goal action address s l ?_
          rw [hlegs, hsplit]
          exact List.mem_append_right early List.mem_cons_self
      · -- The run is over before it begins, at its first leg.
        have hover := not_lt.mp hbegun
        refine ⟨[], first, rest, start, s, hcons, nofun, hover.trans hbegins, max_eq_left hover, ?_,
          (if_pos hover).symm, fun _ _ => rfl⟩
        rw [hhistory]
        exact a.attempt_over (check_start hover) _ _ _ s

end Legs

/-! ### Agents in rehearsal -/

namespace Rehearsal

theorem Switch.passing_store {α : Type} (switch : Switch)
    {answer : StateM Stage (Except Ledger.Failure α)}
    (hanswer : ∀ stage, (answer stage).2.store = stage.store) (stage : Stage) :
    (switch.passing answer stage).2.store = stage.store := by
  unfold Switch.passing
  cases switch.failure with
  | some f => rfl
  | none => exact hanswer stage

/-- The collaborators of a scripted agent only change the ledger by a write. -/
theorem agent_keeps_store (c : Cast)
    (hknowledge : ∀ goal action stage,
      (c.knowledge.lookup goal action stage).2.store = stage.store) :
    (agent c).Keeps Stage.store where
  recent := fun _ stage => Switch.passing_store c.reading (fun _ => rfl) stage
  lookup := hknowledge
  generate := fun _ _ => rfl
  execute := fun action address stage => by
    unfold agent
    cases c.actor with
    | none => rfl
    | some a => rfl

end Rehearsal

/-! ### Ties -/

/-- An agent whose collaborators count their calls. History takes one nanosecond, reasoning five. -/
def counting : Agent (StateM Nat) where
  ledger :=
    { name := "none"
      recent := fun _ asked => (⟨some ⟨1⟩, .ok []⟩, asked + 1)
      get := fun _ asked => (⟨none, .error (.notFound 0)⟩, asked)
      stats := fun asked => (⟨none, .error (.notFound 0)⟩, asked)
      prepare := fun asked => (⟨some ⟨2⟩, .ok ()⟩, asked)
      record := fun _ asked => (.error (.notFound 0), asked + 1) }
  knowledge := .absent
  generate := fun _ asked => (⟨some ⟨5⟩, .ok ⟨"", "yes"⟩⟩, asked + 1)
  reasoningTimeout := ⟨9⟩
  execute := fun _ _ asked => (⟨none, .error .notConfigured⟩, asked + 1)
  options := ⟨3, none, ⟨9⟩⟩

theorem counting_legs : counting.legs ⟨0⟩ "go" "" "" 0 =
    [⟨.history, some ⟨1⟩, 1⟩, ⟨.reasoning, some ⟨6⟩, 2⟩] := by
  rfl

/-- A cancellation and a deadline where reasoning ends: the run is cancelled. One nanosecond later
neither interrupts it, though the write takes longer. -/
theorem counting_interrupted :
    (counting.run {cancelAt := some ⟨6⟩, deadline := some ⟨6⟩} "go" "" "").run 0 =
        (some (.error (.cancelled .reasoning), ⟨6⟩), 2) ∧
      (counting.run {cancelAt := some ⟨7⟩, deadline := some ⟨7⟩} "go" "" "").run 0 =
        (counting.run {} "go" "" "").run 0 := by
  constructor
  · have hlimit : limitOf (some ⟨6⟩) (some ⟨6⟩) = (6 : ℕ) := rfl
    have hlate : ∃ l ∈ counting.legs ⟨0⟩ "go" "" "" 0,
        limitOf (some ⟨6⟩) (some ⟨6⟩) ≤ instant l.ended := by
      rw [counting_legs, hlimit]
      exact ⟨⟨.reasoning, some ⟨6⟩, 2⟩, by simp, le_refl _⟩
    obtain ⟨early, l, later, limit, left, hsplit, hearly, hl, hnanos, hrun, hleft, -⟩ :=
      (run_interrupted counting ⟨0⟩ (some ⟨6⟩) (some ⟨6⟩) "go" "" "" 0).2 hlate
        (by rw [hlimit]; exact ENat.natCast_ne_top _)
    rw [hlimit] at hl hnanos hleft
    obtain ⟨nanos⟩ := limit
    obtain rfl : 6 = nanos := Nat.cast_inj.mp hnanos
    rw [hrun, hleft]
    rw [counting_legs] at hsplit
    rcases early with _ | ⟨e, _ | ⟨e', early⟩⟩
    · cases hsplit
      exact absurd (Nat.cast_le.mp hl) (by decide)
    · cases hsplit
      rfl
    · simp at hsplit
  · refine (run_interrupted counting ⟨0⟩ (some ⟨7⟩) (some ⟨7⟩) "go" "" "" 0).1 (.inl fun l hl => ?_)
    rw [counting_legs] at hl
    have hlimit : limitOf (some ⟨7⟩) (some ⟨7⟩) = (7 : ℕ) := rfl
    rw [hlimit]
    simp only [List.mem_cons, List.not_mem_nil, or_false] at hl
    obtain rfl | rfl := hl
    · exact Nat.cast_lt.mpr (by decide)
    · exact Nat.cast_lt.mpr (by decide)

/-- A run that begins when its deadline and then its cancellation have passed is cancelled, not
timed out, though the deadline came first. -/
theorem run_begun_late :
    limitOf (some ⟨10⟩) (some ⟨5⟩) = instant (some ⟨5⟩) ∧
      instant (some ⟨5⟩) < instant (some ⟨10⟩) ∧
      (counting.run {start := ⟨10⟩, cancelAt := some ⟨10⟩, deadline := some ⟨5⟩} "go" "" "").run 0 =
        (some (.error (.cancelled .history), ⟨10⟩), 0) ∧
      (counting.run {start := ⟨10⟩, cancelAt := some ⟨10⟩, deadline := some ⟨5⟩} "go" "" "").run 0 ≠
        (some (.error (.timedOut .history), ⟨10⟩), 0) := by
  have hrun : (counting.run {start := ⟨10⟩, cancelAt := some ⟨10⟩, deadline := some ⟨5⟩}
      "go" "" "").run 0 = (some (.error (.cancelled .history), ⟨10⟩), 0) := rfl
  refine ⟨rfl, Nat.cast_lt.mpr (by decide), hrun, ?_⟩
  rw [hrun]
  nofun

end ChainAgent.Agent
