import ChainAgent.Proofs.Agent.Steps

/-! The calls of an agent to its collaborators.

A recorded agent does what the agent does and logs every call with its answer. A `Story` relates the
state before a step to the calls that it may make, its result and the state after it; a step tells a
story (`Tells`) if it does so in every state, at every instant and under its context. Stories
compose as steps do (`Tells.bind`), so the story of a run is composed of those of its steps
(`attempt_tells`), and what holds of every run is proved from it. -/
namespace ChainAgent.Agent

open Time (Span Work Course)

/-- A call to a collaborator, with the answer. -/
inductive Call where
  | recent (limit : Nat) (answer : Work (Except Ledger.Failure (List Task)))
  | lookup (goal action : String) (answer : Work (Except Knowledge.Failure (List Knowledge.Card)))
  | generate (r : Reasoning.Request) (answer : Work (Except Reasoning.Failure Reasoning.Reply))
  | execute (action address : String) (answer : Work (Except Chain.Failure Chain.Outcome))
  /-- The delay of a write. -/
  | prepare (answer : Work (Except Ledger.Failure Unit))
  /-- The write itself. -/
  | record (d : Task.Draft) (answer : Except Ledger.Failure Task)

inductive Call.Kind where
  | recent
  | lookup
  | generate
  | execute
  | prepare
  | record
deriving DecidableEq

def Call.kind : Call → Kind
  | .recent _ _ => .recent
  | .lookup _ _ _ => .lookup
  | .generate _ _ => .generate
  | .execute _ _ _ => .execute
  | .prepare _ => .prepare
  | .record _ _ => .record

section Recording

variable {σ α β : Type}

/-- A call, appended to the log. -/
def recording (call : α → Call) (work : StateM σ α) : StateM (σ × List Call) α := fun (s, log) =>
  ((work s).1, ((work s).2, log ++ [call (work s).1]))

/-- A computation outside a run, which is not logged. -/
def unrecorded (work : StateM σ α) : StateM (σ × List Call) α := fun (s, log) =>
  ((work s).1, ((work s).2, log))

def recordedSource (source : Knowledge.Source (StateM σ)) :
    Knowledge.Source (StateM (σ × List Call)) where
  name := source.name
  maxResults := source.maxResults
  lookup := fun goal action => recording (.lookup goal action) (source.lookup goal action)

def recordedBinding : Knowledge.Binding (StateM σ) → Knowledge.Binding (StateM (σ × List Call))
  | .absent => .absent
  | .present source => .present (recordedSource source)

/-- The agent with its calls logged. -/
def recorded (a : Agent (StateM σ)) : Agent (StateM (σ × List Call)) where
  ledger :=
    { name := a.ledger.name
      recent := fun limit => recording (.recent limit) (a.ledger.recent limit)
      get := fun id => unrecorded (a.ledger.get id)
      stats := unrecorded a.ledger.stats
      prepare := recording .prepare a.ledger.prepare
      record := fun d => recording (.record d) (a.ledger.record d) }
  knowledge := recordedBinding a.knowledge
  generate := fun r => recording (.generate r) (a.generate r)
  reasoningTimeout := a.reasoningTimeout
  execute := fun action address => recording (.execute action address) (a.execute action address)
  options := a.options

/-- The calls of a run. -/
def calls (a : Agent (StateM σ)) (ctx : Context) (goal action address : String) (s : σ) :
    List Call :=
  ((a.recorded.run ctx goal action address).run (s, [])).2.2

end Recording

/-! ### Work at a step -/

section Settling

variable {σ α : Type}

/-- The result at an instant, unless the caller drops the run before. -/
def awaited (ctx : Context) (instant : Span) (a : α) : Option (α × Span) :=
  if ctx.abandonAt.any fun limit => limit.nanos < instant.nanos then none else some (a, instant)

/-- The result of work that has begun at an instant: it may be interrupted, or dropped by the
caller. -/
def settled (ctx : Context) (step : Step) (t : Span) (w : Work α) :
    Option (Except Failure α × Span) :=
  let ended := w.takes.map (t + ·)
  match ctx.interrupting ended, ended with
  | some (instant, i), _ => awaited ctx instant (.error (i.at step))
  | none, some e => awaited ctx e (.ok w.yields)
  | none, none => none

theorem courseOutcome_advance (ctx : Context) (instant t : Span) (a : α) (s : σ) :
    courseOutcome (do Course.advance ctx.abandonAt instant; return a) t s =
      (awaited ctx instant a, s) := by
  unfold Course.advance awaited
  split <;> rfl

theorem outcome_during_settled (ctx : Context) (step : Step) (work : StateM σ (Work α)) (t : Span)
    (s : σ) :
    outcome (during ctx step work) t s =
      match ctx.check t with
      | some i => (some (.error (i.at step), t), s)
      | none => (settled ctx step t (work s).1, (work s).2) := by
  rw [outcome_during]
  cases hcheck : ctx.check t with
  | some i =>
    have hover : courseOutcome (ctx.guarding work) t s = (some (.error i, t), s) := by
      show courseOutcome (match ctx.check t with
        | some i => pure (Except.error i)
        | none => _) t s = _
      rw [hcheck]
      rfl
    rw [hover]
  | none =>
    rw [guarding_begun hcheck]
    unfold settled
    dsimp only
    generalize (work s).1.takes.map (t + ·) = ended
    rcases ctx.interrupting ended with _ | ⟨instant, i⟩
    · cases ended with
      | none => rfl
      | some e =>
        dsimp only
        rw [courseOutcome_advance]
        unfold awaited
        split_ifs <;> rfl
    · dsimp only
      rw [courseOutcome_advance]
      unfold awaited
      split_ifs <;> rfl

/-- Work at a step is dropped, is interrupted, or gives its result. -/
theorem settled_cases (ctx : Context) (step : Step) (t : Span) (w : Work α) :
    settled ctx step t w = none ∨
      (∃ (i : Interruption) (e : Span), settled ctx step t w = some (.error (i.at step), e)) ∨
      ∃ e, settled ctx step t w = some (.ok w.yields, e) := by
  unfold settled awaited
  dsimp only
  split
  · split
    · exact .inl rfl
    · exact .inr (.inl ⟨_, _, rfl⟩)
  · split
    · exact .inl rfl
    · exact .inr (.inr ⟨_, rfl⟩)
  · exact .inl rfl

/-- Work at a step gives its result when it ends before every interruption and is not dropped. -/
theorem settled_eq_ok {ctx : Context} {step : Step} {t : Span} {w : Work α} {r : α} {e : Span} :
    settled ctx step t w = some (.ok r, e) ↔
      r = w.yields ∧ w.takes.map (t + ·) = some e ∧ ctx.interrupting (some e) = none ∧
        (ctx.abandonAt.any fun limit => limit.nanos < e.nanos) = false := by
  unfold settled awaited
  dsimp only
  generalize w.takes.map (t + ·) = ended
  cases ended with
  | none => cases ctx.interrupting none <;> simp
  | some e' =>
    constructor
    · intro h
      cases hinterrupting : ctx.interrupting (some e') with
      | none =>
        rw [hinterrupting] at h
        dsimp only at h
        split at h
        · cases h
        · rename_i hawaited
          cases h
          exact ⟨rfl, rfl, hinterrupting, by simpa using hawaited⟩
      | some limit =>
        rw [hinterrupting] at h
        dsimp only at h
        split at h <;> cases h
    · rintro ⟨rfl, he, hinterrupting, hawaited⟩
      cases he
      simp only [hinterrupting, hawaited]
      rfl

/-- The result of work that only the caller can end early. -/
def waited (ctx : Context) (t : Span) (w : Work α) : Option (α × Span) :=
  w.takes.bind fun d => awaited ctx (t + d) w.yields

theorem courseOutcome_await (ctx : Context) (work : StateM σ (Work α)) (t : Span) (s : σ) :
    courseOutcome (Course.await ctx.abandonAt work) t s =
      (waited ctx t (work s).1, (work s).2) := by
  have hsame : courseOutcome (Course.await ctx.abandonAt work) t s =
      courseOutcome (Course.await ctx.abandonAt fun _ => work s) t s := rfl
  rw [hsame]
  obtain ⟨⟨takes, yields⟩, left⟩ := work s
  cases takes with
  | none => rfl
  | some d => exact courseOutcome_advance ctx (t + d) t yields left

theorem outcome_persist (a : Agent (StateM σ)) (ctx : Context) (d : Task.Draft) (t : Span) (s : σ) :
    outcome (a.persist ctx d) t s =
      match ctx.check t with
      | some i => (some (.error (i.at .persist), t), s)
      | none =>
        match waited ctx t (a.ledger.prepare s).1 with
        | none => (none, (a.ledger.prepare s).2)
        | some (.error f, e) => (some (.error (.storage f), e), (a.ledger.prepare s).2)
        | some (.ok _, e) =>
          (some ((a.ledger.record d (a.ledger.prepare s).2).1.mapError .storage, e),
            (a.ledger.record d (a.ledger.prepare s).2).2) := by
  unfold persist
  rw [outcome_bind, outcome_checkpoint]
  cases ctx.check t with
  | some i => rfl
  | none =>
    dsimp only
    rw [outcome_bind, outcome_lift, courseOutcome_await]
    rcases waited ctx t (a.ledger.prepare s).1 with _ | ⟨f | u, e⟩
    · rfl
    · rfl
    · dsimp only
      generalize (a.ledger.prepare s).2 = prepared
      have hrecord : outcome (liftM (liftM (a.ledger.record d) :
            OptionT (StateM σ) (Except Ledger.Failure Task))) e prepared =
          (some (.ok (a.ledger.record d prepared).1, e), (a.ledger.record d prepared).2) := rfl
      rw [outcome_bind, hrecord]
      cases (a.ledger.record d prepared).1 with
      | error f => rfl
      | ok task => rfl

end Settling

/-! ### Stories -/

/-- The calls of a step from a state on, its result, none if the caller drops it, and the state
after it. -/
abbrev Story (σ α : Type) : Type := σ → List Call → Option (Except Failure α) → σ → Prop

namespace Story

variable {σ α β : Type}

/-- A step without a call. -/
inductive Passing (step : Step) (a : α) (s : σ) :
    List Call → Option (Except Failure α) → σ → Prop
  | stopped (i : Interruption) : Passing step a s [] (some (.error (i.at step))) s
  | passed : Passing step a s [] (some (.ok a)) s

/-- A step with one call, unless the run is interrupted before. -/
inductive Asking (step : Step) (call : β → Call) (work : StateM σ β)
    (answer : β → Except Failure α) (s : σ) : List Call → Option (Except Failure α) → σ → Prop
  | stopped (i : Interruption) : Asking step call work answer s [] (some (.error (i.at step))) s
  | interrupted (i : Interruption) :
    Asking step call work answer s [call (work s).1] (some (.error (i.at step))) (work s).2
  | abandoned : Asking step call work answer s [call (work s).1] none (work s).2
  | answered :
    Asking step call work answer s [call (work s).1] (some (answer (work s).1)) (work s).2

/-- One story and then another, if the first succeeds. -/
inductive AndThen (first : Story σ α) (next : α → Story σ β) (s : σ) :
    List Call → Option (Except Failure β) → σ → Prop
  | abandoned {calls left} : first s calls none left → AndThen first next s calls none left
  | failed {calls f left} : first s calls (some (.error f)) left →
    AndThen first next s calls (some (.error f)) left
  | went {front back a between r left} : first s front (some (.ok a)) between →
    next a between back r left → AndThen first next s (front ++ back) r left

/-- A write: its delay, and then the write itself. -/
inductive Writing (a : Agent (StateM σ)) (d : Task.Draft) (s : σ) :
    List Call → Option (Except Failure Task) → σ → Prop
  | stopped (i : Interruption) : Writing a d s [] (some (.error (i.at .persist))) s
  | abandoned : Writing a d s [.prepare (a.ledger.prepare s).1] none (a.ledger.prepare s).2
  | refused {f : Ledger.Failure} : (a.ledger.prepare s).1.yields = .error f →
    Writing a d s [.prepare (a.ledger.prepare s).1] (some (.error (.storage f)))
      (a.ledger.prepare s).2
  | recorded : (a.ledger.prepare s).1.yields = .ok () →
    Writing a d s [.prepare (a.ledger.prepare s).1,
        .record d (a.ledger.record d (a.ledger.prepare s).2).1]
      (some ((a.ledger.record d (a.ledger.prepare s).2).1.mapError .storage))
      (a.ledger.record d (a.ledger.prepare s).2).2

end Story

/-! ### Steps and their stories -/

section Telling

variable {σ α β γ : Type}

/-- A recorded step behaves as the step does, and tells a story. -/
def Tells (x : Attempt (StateM (σ × List Call)) α) (y : Attempt (StateM σ) α) (story : Story σ α) :
    Prop :=
  ∀ t s log, ∃ calls,
    outcome x t (s, log) = ((outcome y t s).1, (outcome y t s).2, log ++ calls) ∧
      story s calls ((outcome y t s).1.map (·.1)) (outcome y t s).2

theorem Tells.bind {x : Attempt (StateM (σ × List Call)) α} {y : Attempt (StateM σ) α}
    {story : Story σ α} {f : α → Attempt (StateM (σ × List Call)) β}
    {g : α → Attempt (StateM σ) β} {next : α → Story σ β} (h : Tells x y story)
    (hnext : ∀ a, Tells (f a) (g a) (next a)) :
    Tells (x >>= f) (y >>= g) (story.AndThen next) := by
  intro t s log
  obtain ⟨front, hx, hfirst⟩ := h t s log
  rw [outcome_bind, outcome_bind, hx]
  rcases houtcome : outcome y t s with ⟨_ | ⟨f | a, e⟩, between⟩
  · rw [houtcome] at hfirst
    exact ⟨front, rfl, .abandoned hfirst⟩
  · rw [houtcome] at hfirst
    exact ⟨front, rfl, .failed hfirst⟩
  · rw [houtcome] at hfirst
    obtain ⟨back, hf, hrest⟩ := hnext a e between (log ++ front)
    refine ⟨front ++ back, ?_, .went hfirst hrest⟩
    rw [← List.append_assoc]
    exact hf

theorem tells_pure (step : Step) (a : α) :
    Tells (σ := σ) (pure a) (pure a) (Story.Passing step a) := by
  intro t s log
  refine ⟨[], ?_, .passed⟩
  rw [List.append_nil]
  rfl

/-- A step without a call succeeds or is interrupted, with or without a checkpoint. -/
theorem Tells.checkpoint_pure (ctx : Context) (step : Step) (a : α) :
    Tells (σ := σ) (checkpoint ctx step >>= fun _ => pure a) (checkpoint ctx step >>= fun _ => pure a)
      (Story.Passing step a) := by
  intro t s log
  rw [outcome_bind, outcome_bind, outcome_checkpoint, outcome_checkpoint]
  refine ⟨[], ?_, ?_⟩
  · rw [List.append_nil]
    cases ctx.check t <;> rfl
  · cases ctx.check t with
    | some i => exact .stopped i
    | none => exact .passed

/-- A step that takes no time, makes no call and depends on its input alone. -/
def Says (f : β → Attempt (StateM σ) α) (answer : β → Except Failure α) : Prop :=
  ∀ b t s, outcome (f b) t s = (some (answer b, t), s)

/-- Work at a step, followed by such a step. -/
theorem outcome_during_said {f : γ → Attempt (StateM σ) α} {said : γ → Except Failure α}
    (hf : Says f said) (ctx : Context) (step : Step) (work : StateM σ (Work γ)) (t : Span) (s : σ) :
    outcome (during ctx step work >>= f) t s =
      match ctx.check t with
      | some i => (some (.error (i.at step), t), s)
      | none =>
        ((settled ctx step t (work s).1).map fun r => (r.1.bind said, r.2), (work s).2) := by
  rw [outcome_bind, outcome_during_settled]
  cases ctx.check t with
  | some i => rfl
  | none =>
    rcases settled ctx step t (work s).1 with _ | ⟨f | b, e⟩
    · rfl
    · rfl
    · exact hf b e _

/-- Recorded work at a step. Its result may depend on the instant, but not the story's. -/
theorem tells_during {x : StateM (σ × List Call) (Work γ)} {y : StateM σ (Work γ)}
    {f : γ → Attempt (StateM (σ × List Call)) α} {g : γ → Attempt (StateM σ) α}
    {said : γ → Except Failure α} {call : β → Call} {work : StateM σ β}
    {answer : β → Except Failure α} {ctx : Context} {step : Step} {t : Span} {s : σ}
    {log : List Call} (hx : x (s, log) = ((y s).1, (work s).2, log ++ [call (work s).1]))
    (hy : (y s).2 = (work s).2) (hf : Says f said) (hg : Says g said)
    (hanswer : ∀ r e, settled ctx step t (y s).1 = some (.ok r, e) → said r = answer (work s).1) :
    ∃ calls,
      outcome (during ctx step x >>= f) t (s, log) =
          ((outcome (during ctx step y >>= g) t s).1, (outcome (during ctx step y >>= g) t s).2,
            log ++ calls) ∧
        Story.Asking step call work answer s calls
          ((outcome (during ctx step y >>= g) t s).1.map (·.1))
          (outcome (during ctx step y >>= g) t s).2 := by
  rw [outcome_during_said hf, outcome_during_said hg, hx, hy]
  cases ctx.check t with
  | some i => exact ⟨[], by rw [List.append_nil], .stopped i⟩
  | none =>
    refine ⟨[call (work s).1], rfl, ?_⟩
    obtain hnone | ⟨i, e, hstopped⟩ | ⟨e, hended⟩ := settled_cases ctx step t (y s).1
    · simp only [hnone]
      exact .abandoned
    · simp only [hstopped]
      exact .interrupted i
    · have hsaid := hanswer _ _ hended
      simp only [hended, Option.map_some, Except.bind, hsaid]
      exact .answered

end Telling

/-! ### The steps of a run -/

section Steps

variable {σ : Type} (a : Agent (StateM σ))

/-- The past tasks in an answer of the ledger. -/
def pastOf (depth : Nat) :
    Except Ledger.Failure (List Task) → Except Failure (List Reasoning.PastTask)
  | .error f => .error (.storage f)
  | .ok tasks => .ok ((tasks.take depth).map .of)

theorem says_recalled (depth : Nat) : Says (recalled (σ := σ) depth) (pastOf depth) := by
  intro r t s
  cases r <;> rfl

/-- The ledger is asked for past tasks unless the memory depth is zero. -/
def historyStory : Story σ (List Reasoning.PastTask) :=
  if a.options.memoryDepth == 0 then .Passing .history []
  else .Asking .history (.recent a.options.memoryDepth) (a.ledger.recent a.options.memoryDepth)
    fun w => pastOf a.options.memoryDepth w.yields

/-- A step with a call needs no checkpoint of its own. -/
theorem outcome_checkpoint_during {α β : Type} (ctx : Context) (step : Step)
    (work : StateM σ (Work β)) (f : β → Attempt (StateM σ) α) (t : Span) (s : σ) :
    outcome (checkpoint ctx step >>= fun _ => during ctx step work >>= f) t s =
      outcome (during ctx step work >>= f) t s := by
  rw [outcome_bind, outcome_checkpoint]
  cases hcheck : ctx.check t with
  | some i => rw [outcome_bind, outcome_during_settled, hcheck]
  | none => rfl

theorem recallHistory_tells (ctx : Context) :
    Tells (a.recorded.recallHistory ctx) (a.recallHistory ctx) a.historyStory := by
  have hsame : a.recorded.options.memoryDepth = a.options.memoryDepth := rfl
  rw [recallHistory_eq, recallHistory_eq, hsame]
  unfold historyStory
  cases hdepth : a.options.memoryDepth == 0 with
  | true =>
    simp only [if_true]
    exact .checkpoint_pure ctx .history []
  | false =>
    simp only [Bool.false_eq_true, if_false]
    intro t s log
    rw [outcome_checkpoint_during, outcome_checkpoint_during]
    exact tells_during rfl rfl (says_recalled _) (says_recalled _) fun r e hended => by
      rw [(settled_eq_ok.mp hended).1]

/-- The cards in an answer of a source. -/
def cardsOf (limit : Nat) : Except Knowledge.Failure (List Knowledge.Card) → List Knowledge.Card
  | .error _ => []
  | .ok cards => Knowledge.Binding.usable limit cards

/-- The source is asked if there is one with a positive limit. -/
def knowledgeStory (goal action : String) : Story σ (List Knowledge.Card) :=
  match a.knowledge with
  | .absent => .Passing .knowledge []
  | .present source =>
    if source.maxResults == 0 then .Passing .knowledge []
    else .Asking .knowledge (.lookup goal action) (source.lookup goal action) fun w =>
      .ok (cardsOf source.maxResults w.yields)

/-- The result of a lookup that is passed on. -/
def toldCards : Except Knowledge.Failure (List Knowledge.Card) →
    Except Failure (List Knowledge.Card)
  | .error _ => .ok []
  | .ok cards => .ok cards

theorem says_lookedUp : Says (lookedUp (σ := σ)) toldCards := by
  intro r t s
  cases r <;> rfl

omit a in
/-- A source with a positive limit is asked. -/
theorem lookup_present {source : Knowledge.Source (StateM σ)} (hmax : source.maxResults ≠ 0)
    (goal action : String) (s : σ) :
    (Knowledge.Binding.present source).lookup goal action s =
      ((source.lookup goal action s).1.map fun r =>
          r.map (Knowledge.Binding.usable source.maxResults),
        (source.lookup goal action s).2) := by
  unfold Knowledge.Binding.lookup
  simp only [beq_eq_false_iff_ne.mpr hmax]
  rfl

omit a in
theorem lookup_empty {source : Knowledge.Source (StateM σ)} (hmax : source.maxResults = 0)
    (goal action : String) (s : σ) :
    (Knowledge.Binding.present source).lookup goal action s = (.done (.ok []), s) := by
  unfold Knowledge.Binding.lookup
  simp only [hmax]
  rfl

theorem lookupKnowledge_tells (ctx : Context) (goal action : String) :
    Tells (a.recorded.lookupKnowledge ctx goal action) (a.lookupKnowledge ctx goal action)
      (a.knowledgeStory goal action) := by
  rw [lookupKnowledge_eq, lookupKnowledge_eq]
  unfold knowledgeStory
  have hknowledge : a.recorded.knowledge = recordedBinding a.knowledge := rfl
  rw [hknowledge]
  cases a.knowledge with
  | absent => exact tells_pure .knowledge []
  | present source =>
    have hrecorded : (recordedBinding (.present source)).isActive =
        Knowledge.Binding.isActive (.present source) := rfl
    rw [hrecorded]
    by_cases hmax : source.maxResults = 0
    · have hactive : Knowledge.Binding.isActive (.present source) = false := by
        simp [Knowledge.Binding.isActive, hmax]
      simp only [hactive, hmax]
      exact tells_pure .knowledge []
    · have hactive : Knowledge.Binding.isActive (.present source) = true := by
        simp [Knowledge.Binding.isActive, Nat.pos_of_ne_zero hmax]
      simp only [hactive, beq_eq_false_iff_ne.mpr hmax]
      intro t s log
      refine tells_during ?_ (congrArg (·.2) (lookup_present hmax goal action s)) says_lookedUp
        says_lookedUp ?_
      · rw [lookup_present hmax]
        have hbound : (recordedSource source).maxResults ≠ 0 := hmax
        exact lookup_present hbound goal action (s, log)
      · intro r e hended
        rw [(settled_eq_ok.mp hended).1, lookup_present hmax]
        show toldCards ((source.lookup goal action s).1.yields.map _) = _
        cases (source.lookup goal action s).1.yields <;> rfl

/-- The answer of a backend within its timeout. -/
def replyWithin (w : Work (Except Reasoning.Failure Reasoning.Reply)) :
    Except Reasoning.Failure Reasoning.Reply :=
  let budget := a.options.llmTimeout.getD a.reasoningTimeout
  (w.within budget (.error (.timedOut budget))).yields

/-- The reply in an answer of a backend: it must not be blank. -/
def replyOf : Except Reasoning.Failure Reasoning.Reply → Except Failure Reasoning.Reply
  | .error f => .error (.reasoning f)
  | .ok reply => if Text.saysNothing reply.reply then .error (.reasoning .emptyReply) else .ok reply

theorem says_replied : Says (replied (σ := σ)) replyOf := by
  intro r t s
  cases r with
  | error f => rfl
  | ok reply =>
    show outcome (if Text.saysNothing reply.reply then _ else _) t s =
      (some (if Text.saysNothing reply.reply then _ else _, t), s)
    split <;> rfl

/-- The backend is asked. -/
def reasoningStory (r : Reasoning.Request) : Story σ Reasoning.Reply :=
  .Asking .reasoning (.generate r) (a.generate r) fun w => replyOf (a.replyWithin w)

theorem reason_tells (ctx : Context) (r : Reasoning.Request) :
    Tells (a.recorded.reason ctx r) (a.reason ctx r) (a.reasoningStory r) := by
  rw [reason_eq, reason_eq]
  intro t s log
  exact tells_during rfl rfl says_replied says_replied fun r e hended => by
    rw [(settled_eq_ok.mp hended).1]
    rfl

/-- The result of a chain action within the agent's own timeout. -/
def outcomeWithin (w : Work (Except Chain.Failure Chain.Outcome)) :
    Except Chain.Failure Chain.Outcome :=
  (w.within a.options.chainTimeout (lateOutcome a.options.chainTimeout)).yields

/-- A draft with the result of its chain action. -/
def draftOf (d : Task.Draft) : Except Chain.Failure Chain.Outcome → Task.Draft
  | .ok o => d.withOutcome (observed d.chainAction o)
  | .error f => d.withFailure (failureText d.chainAction f)

theorem says_concluded (d : Task.Draft) :
    Says (concluded (σ := σ) d) fun r => .ok (draftOf d r) := by
  intro r t s
  cases r <;> rfl

/-- The chain action is executed if there is one. -/
def chainStory (d : Task.Draft) : Story σ Task.Draft :=
  if d.chainAction.isEmpty then .Passing .chain d
  else .Asking .chain (.execute d.chainAction d.address) (a.execute d.chainAction d.address) fun w =>
    .ok (draftOf d (a.outcomeWithin w))

/-- Work that is not interrupted ends before the deadline. -/
theorem lt_deadline {ctx : Context} {e deadline : Span} (h : ctx.interrupting (some e) = none)
    (hdeadline : ctx.deadline = some deadline) : e.nanos < deadline.nanos := by
  unfold Context.interrupting Context.first at h
  rw [hdeadline] at h
  cases hcancel : ctx.cancelAt with
  | none =>
    rw [hcancel] at h
    simpa using h
  | some c =>
    rw [hcancel] at h
    dsimp only at h
    by_cases hcd : c.nanos ≤ deadline.nanos
    · simp only [hcd, if_true] at h
      have he : e.nanos < c.nanos := by simpa using h
      omega
    · simp only [hcd, if_false] at h
      simpa using h

/-- A chain action that is not interrupted has the result that it has within the agent's own
timeout, whether it began then or earlier. -/
theorem within_chainBudget {ctx : Context} {step : Step} {t t₀ e : Span}
    {w : Work (Except Chain.Failure Chain.Outcome)} {r : Except Chain.Failure Chain.Outcome}
    (ht : t₀.nanos ≤ t.nanos)
    (hended : settled ctx step t
      (w.within (a.chainBudget ctx t) (lateOutcome (a.chainBudget ctx t))) = some (.ok r, e)) :
    w.within (a.chainBudget ctx t₀) (lateOutcome (a.chainBudget ctx t₀)) =
      w.within a.options.chainTimeout (lateOutcome a.options.chainTimeout) := by
  obtain ⟨-, htakes, hfree, -⟩ := settled_eq_ok.mp hended
  cases hdeadline : ctx.deadline with
  | none => simp only [chainBudget, Context.remaining, hdeadline, Option.map_none]
  | some deadline =>
    have hbefore := lt_deadline hfree hdeadline
    have hbudget (t : Span) : a.chainBudget ctx t =
        if deadline.nanos - t.nanos ≤ a.options.chainTimeout.nanos then ⟨deadline.nanos - t.nanos⟩
        else a.options.chainTimeout := by
      simp only [chainBudget, Context.remaining, hdeadline, Option.map_some]
    by_cases hcut : deadline.nanos - t₀.nanos ≤ a.options.chainTimeout.nanos
    · -- Cut short then, the budget is cut shorter at the later instant, and the work within it.
      have hcut' : deadline.nanos - t.nanos ≤ a.options.chainTimeout.nanos := by omega
      rw [hbudget, if_pos hcut'] at htakes
      obtain ⟨_ | d, yields⟩ := w
      · simp only [Work.within, Option.map_some, Option.some.injEq] at htakes
        rw [← htakes] at hbefore
        have hsum : t.nanos + (deadline.nanos - t.nanos) < deadline.nanos := hbefore
        omega
      · by_cases hd : d.nanos ≤ deadline.nanos - t.nanos
        · have hd₀ : d.nanos ≤ deadline.nanos - t₀.nanos := by omega
          have hfull : d.nanos ≤ a.options.chainTimeout.nanos := by omega
          rw [hbudget, if_pos hcut]
          simp only [Work.within, if_pos hd₀, if_pos hfull]
        · simp only [Work.within, if_neg hd, Option.map_some, Option.some.injEq] at htakes
          rw [← htakes] at hbefore
          have hsum : t.nanos + (deadline.nanos - t.nanos) < deadline.nanos := hbefore
          omega
    · rw [hbudget, if_neg hcut]

theorem executeChain_tells (ctx : Context) (d : Task.Draft) :
    Tells (a.recorded.executeChain ctx d) (a.executeChain ctx d) (a.chainStory d) := by
  unfold chainStory
  cases hd : d.chainAction.isEmpty with
  | true =>
    have hskip {σ : Type} (a : Agent (StateM σ)) : a.executeChain ctx d = pure d := by
      unfold executeChain
      rw [hd]
      rfl
    rw [hskip, hskip]
    exact tells_pure .chain d
  | false =>
    intro t s log
    rw [outcome_executeChain a.recorded ctx hd, outcome_executeChain a ctx hd]
    refine tells_during rfl (a.chainWork_state d _ s) (says_concluded d) (says_concluded d) ?_
    intro r e hended
    have hsame := a.within_chainBudget (Nat.le_refl t.nanos) hended
    rw [(settled_eq_ok.mp hended).1, outcomeWithin, ← hsame]
    rfl

theorem persist_tells (ctx : Context) (d : Task.Draft) :
    Tells (a.recorded.persist ctx d) (a.persist ctx d) (Story.Writing a d) := by
  intro t s log
  rw [outcome_persist, outcome_persist]
  cases ctx.check t with
  | some i => exact ⟨[], by rw [List.append_nil], .stopped i⟩
  | none =>
    have hprepare : a.recorded.ledger.prepare (s, log) =
        ((a.ledger.prepare s).1, (a.ledger.prepare s).2, log ++ [.prepare (a.ledger.prepare s).1]) :=
      rfl
    have hrecord (s : σ) (log : List Call) : a.recorded.ledger.record d (s, log) =
        ((a.ledger.record d s).1, (a.ledger.record d s).2,
          log ++ [.record d (a.ledger.record d s).1]) := rfl
    rw [hprepare]
    dsimp only
    rcases hwaited : waited ctx t (a.ledger.prepare s).1 with _ | ⟨r, e⟩
    · exact ⟨_, rfl, .abandoned⟩
    · have hyields : (a.ledger.prepare s).1.yields = r := by
        unfold waited awaited at hwaited
        obtain ⟨d, -, hd⟩ := Option.bind_eq_some_iff.mp hwaited
        split at hd <;> cases hd
        rfl
      cases r with
      | error f => exact ⟨_, rfl, .refused hyields⟩
      | ok u =>
        refine ⟨_, ?_, .recorded hyields⟩
        rw [hrecord]
        simp

/-! ### Runs -/

/-- The draft of a run whose backend has replied. -/
def draftFor (r : Reasoning.Request) (reply : Reasoning.Reply) : Task.Draft :=
  ({goal := r.goal, chainAction := r.chainAction, address := r.address} : Task.Draft).withReasoning
    reply.thought reply.reply

/-- A run from its request to the backend on. -/
def requestedRun (ctx : Context) (r : Reasoning.Request) : Attempt (StateM σ) Task :=
  a.reason ctx r >>= fun reply => a.executeChain ctx (draftFor r reply) >>= a.persist ctx

/-- A run after its history has been recalled. -/
def recalledRun (ctx : Context) (goal action address : String)
    (history : List Reasoning.PastTask) : Attempt (StateM σ) Task :=
  a.lookupKnowledge ctx goal action >>= fun cards =>
    a.requestedRun ctx ⟨goal, action, address, history, cards⟩

theorem attempt_eq (ctx : Context) (goal action address : String) :
    a.attempt ctx goal action address =
      a.recallHistory ctx >>= a.recalledRun ctx goal action address := rfl

def draftedStory (d : Task.Draft) : Story σ Task := (a.chainStory d).AndThen (Story.Writing a)

def requestedStory (r : Reasoning.Request) : Story σ Task :=
  (a.reasoningStory r).AndThen fun reply => a.draftedStory (draftFor r reply)

def recalledStory (goal action address : String) (history : List Reasoning.PastTask) :
    Story σ Task :=
  (a.knowledgeStory goal action).AndThen fun cards =>
    a.requestedStory ⟨goal, action, address, history, cards⟩

/-- The story of a run whose goal is not blank. -/
def attemptStory (goal action address : String) : Story σ Task :=
  a.historyStory.AndThen (a.recalledStory goal action address)

theorem recalledRun_tells (ctx : Context) (goal action address : String)
    (history : List Reasoning.PastTask) :
    Tells (a.recorded.recalledRun ctx goal action address history)
      (a.recalledRun ctx goal action address history)
      (a.recalledStory goal action address history) :=
  (a.lookupKnowledge_tells ctx goal action).bind fun _ =>
    (a.reason_tells ctx _).bind fun _ => (a.executeChain_tells ctx _).bind (a.persist_tells ctx)

/-- **A run tells the story of its steps.** -/
theorem attempt_tells (ctx : Context) (goal action address : String) :
    Tells (a.recorded.attempt ctx goal action address) (a.attempt ctx goal action address)
      (a.attemptStory goal action address) :=
  (a.recallHistory_tells ctx).bind (a.recalledRun_tells ctx goal action address)

end Steps

end ChainAgent.Agent
