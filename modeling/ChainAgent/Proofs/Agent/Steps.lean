import ChainAgent.Agent.Run
import Mathlib.Data.ENat.Lattice

/-! Steps of a run under a context and without one.

`outcome` is the result of a step from an instant and a state on. Where a context interrupts at a
limit, a step that begins before it either ends before it too, and is then the same as without a
context, or is interrupted at the limit, when its work has begun and nothing else has (`Follows`).
Every step of a run is of this kind; the timeout of the chain action, which the context cuts, does
not end before the limit. -/
namespace ChainAgent.Agent

open Time (Span Work Course)

/-- An instant, or never. -/
def instant : Option Span → ℕ∞
  | some t => t.nanos
  | none => ⊤

section Outcomes

variable {σ α β : Type}

/-- The result of a course and the instant of its end, none if it never ends; and the state after
it. -/
def courseOutcome (c : Course (StateM σ) α) (t : Span) (s : σ) : Option (α × Span) × σ :=
  ((c.run t).run).run s

/-- The result of a step. -/
def outcome (x : Attempt (StateM σ) α) (t : Span) (s : σ) :
    Option (Except Failure α × Span) × σ :=
  courseOutcome x.run t s

/-- The instant at which a step ends. -/
def ended (r : Option (Except Failure α × Span) × σ) : Option Span := r.1.map (·.2)

theorem outcome_bind (x : Attempt (StateM σ) α) (f : α → Attempt (StateM σ) β) (t : Span) (s : σ) :
    outcome (x >>= f) t s =
      match outcome x t s with
      | (some (.ok a, e), s') => outcome (f a) e s'
      | (some (.error failure, e), s') => (some (.error failure, e), s')
      | (none, s') => (none, s') := by
  simp only [outcome, courseOutcome, ExceptT.run_bind, StateT.run_bind, OptionT.run_bind,
    Option.elimM]
  generalize ((x.run.run t).run).run s = r
  obtain ⟨_ | ⟨_ | a, e⟩, s'⟩ := r <;> rfl

theorem outcome_checkpoint (ctx : Context) (step : Step) (t : Span) (s : σ) :
    outcome (checkpoint ctx step) t s =
      match ctx.check t with
      | some i => (some (.error (i.at step), t), s)
      | none => (some (.ok (), t), s) := by
  show outcome (match ctx.check t with
    | some i => throw (i.at step)
    | none => return) t s = _
  cases ctx.check t <;> rfl

/-- Guarded work, once it has begun. -/
theorem guarding_begun {ctx : Context} {t : Span} (hcheck : ctx.check t = none)
    (work : StateM σ (Work α)) (s : σ) :
    courseOutcome (ctx.guarding work) t s =
      courseOutcome (
        let ended := (work s).1.takes.map (t + ·)
        match ctx.interrupting ended, ended with
        | some (instant, i), _ => do
          Course.advance ctx.abandonAt instant
          return .error i
        | none, some e => do
          Course.advance ctx.abandonAt e
          return .ok (work s).1.yields
        | none, none => failure) t (work s).2 := by
  show courseOutcome (match ctx.check t with
    | some i => pure (Except.error i)
    | none => (do
      let w ← (work : OptionT (StateM σ) (Work α))
      let ended := w.takes.map (t + ·)
      match ctx.interrupting ended, ended with
      | some (instant, i), _ =>
        Course.advance ctx.abandonAt instant
        return .error i
      | none, some e =>
        Course.advance ctx.abandonAt e
        return .ok w.yields
      | none, none => failure : Course (StateM σ) (Except Interruption α))) t s = _
  rw [hcheck]
  rfl

/-- A course that does not fail, as a step. -/
theorem outcome_lift (c : Course (StateM σ) α) (t : Span) (s : σ) :
    outcome (liftM c) t s =
      match courseOutcome c t s with
      | (some (a, e), s') => (some (.ok a, e), s')
      | (none, s') => (none, s') := by
  show (((Except.ok <$> c).run t).run).run s = _
  simp only [courseOutcome, StateT.run_map, OptionT.run_map]
  generalize ((c.run t).run).run s = r
  obtain ⟨_ | ⟨a, e⟩, s'⟩ := r <;> rfl

theorem outcome_during (ctx : Context) (step : Step) (work : StateM σ (Work α)) (t : Span) (s : σ) :
    outcome (during ctx step work) t s =
      match courseOutcome (ctx.guarding work) t s with
      | (some (.ok a, e), s') => (some (.ok a, e), s')
      | (some (.error i, e), s') => (some (.error (i.at step), e), s')
      | (none, s') => (none, s') := by
  rw [during, outcome_bind, outcome_lift]
  obtain ⟨_ | ⟨_ | a, e⟩, s'⟩ := courseOutcome (ctx.guarding work) t s <;> rfl

/-- Without a context work runs to its end. -/
theorem outcome_during_free (step : Step) (work : StateM σ (Work α)) (t : Span) (s : σ) :
    outcome (during {} step work) t s =
      ((work s).1.takes.map fun d => (.ok (work s).1.yields, t + d), (work s).2) := by
  rw [outcome_during, guarding_begun rfl]
  cases htakes : (work s).1.takes with
  | none => rfl
  | some d => rfl

end Outcomes

/-! ### Limits -/

/-- A context that interrupts at a limit, and whose caller does not drop the run. -/
structure Context.Limits (ctx : Context) (limit : Span) (i : Interruption) : Prop where
  first : ctx.first = some (limit, i)
  awaited : ctx.abandonAt = none

section Limits

variable {ctx : Context} {limit : Span} {i : Interruption}

theorem Context.Limits.check (h : ctx.Limits limit i) {t : Span} (ht : t.nanos < limit.nanos) :
    ctx.check t = none := by
  have hfirst := h.first
  unfold Context.first at hfirst
  unfold Context.check Context.isCancelled Context.isExpired
  split at hfirst
  · rename_i c d hc hd
    have hboth : ¬ c.nanos ≤ t.nanos ∧ ¬ d.nanos ≤ t.nanos := by
      split at hfirst
      all_goals
        cases hfirst
        omega
    simp [hc, hd, hboth]
  · rename_i c hc hd
    cases hfirst
    simp [hc, hd, ht]
  · rename_i d hc hd
    cases hfirst
    simp [hc, hd, ht]
  · cases hfirst

/-- A limit is the deadline or comes before it. -/
theorem Context.Limits.le_deadline (h : ctx.Limits limit i) {d : Span} (hd : ctx.deadline = some d) :
    limit.nanos ≤ d.nanos := by
  have hfirst := h.first
  unfold Context.first at hfirst
  rw [hd] at hfirst
  split at hfirst
  · rename_i c d' _ hd'
    cases hd'
    split at hfirst
    all_goals
      cases hfirst
      omega
  · rename_i hd'
    cases hd'
  · rename_i d' _ hd'
    cases hd'
    cases hfirst
    exact Nat.le_refl _
  · cases hfirst

/-- Work that ends before the limit is not interrupted. -/
theorem Context.Limits.in_time (h : ctx.Limits limit i) {e : Option Span}
    (he : instant e < limit.nanos) : ctx.interrupting e = none := by
  cases e with
  | none => exact absurd he (by simp [instant])
  | some e =>
    have hlt : e.nanos < limit.nanos := by simpa [instant] using he
    simp [Context.interrupting, h.first, hlt]

/-- Work that does not end before the limit is interrupted at it. -/
theorem Context.Limits.late (h : ctx.Limits limit i) {e : Option Span}
    (he : limit.nanos ≤ instant e) : ctx.interrupting e = some (limit, i) := by
  cases e with
  | none => simp [Context.interrupting, h.first]
  | some e =>
    have hle : limit.nanos ≤ e.nanos := by simpa [instant] using he
    simp [Context.interrupting, h.first, hle]

end Limits

/-! ### Steps that follow their context -/

section Following

variable {σ α β : Type} {ctx : Context} {limit : Span} {i : Interruption}

/-- A step under a limit compared with the same step without one: before the limit they are the
same, and a step that would not end before it is interrupted there. -/
structure Follows (limit : Span) (i : Interruption) (step : Step)
    (bound free : Attempt (StateM σ) α) : Prop where
  in_time : ∀ {t : Span} {s : σ}, t.nanos < limit.nanos →
    instant (ended (outcome free t s)) < limit.nanos → outcome bound t s = outcome free t s
  late : ∀ {t : Span} {s : σ}, t.nanos < limit.nanos →
    limit.nanos ≤ instant (ended (outcome free t s)) →
    outcome bound t s = (some (.error (i.at step), limit), (outcome free t s).2)

/-- Work that ends before the limit. -/
theorem outcome_during_in_time (h : ctx.Limits limit i) (step : Step) (work : StateM σ (Work α))
    {t : Span} {s : σ} (ht : t.nanos < limit.nanos)
    (he : instant ((work s).1.takes.map (t + ·)) < limit.nanos) :
    outcome (during ctx step work) t s = outcome (during {} step work) t s := by
  rw [outcome_during_free, outcome_during, guarding_begun (h.check ht)]
  simp only [h.in_time he, h.awaited]
  cases htakes : (work s).1.takes with
  | none => rfl
  | some d => rfl

/-- Work that ends at the limit or later. -/
theorem outcome_during_late (h : ctx.Limits limit i) (step : Step) (work : StateM σ (Work α))
    {t : Span} {s : σ} (ht : t.nanos < limit.nanos)
    (he : limit.nanos ≤ instant ((work s).1.takes.map (t + ·))) :
    outcome (during ctx step work) t s = (some (.error (i.at step), limit), (work s).2) := by
  rw [outcome_during, guarding_begun (h.check ht)]
  simp only [h.late he, h.awaited]
  rfl

theorem ended_during_free (step : Step) (work : StateM σ (Work α)) (t : Span) (s : σ) :
    ended (outcome (during {} step work) t s) = (work s).1.takes.map (t + ·) := by
  rw [outcome_during_free, ended, Option.map_map]
  rfl

theorem Follows.during (h : ctx.Limits limit i) (step : Step) (work : StateM σ (Work α)) :
    Follows limit i step (during ctx step work) (during {} step work) where
  in_time := fun ht he => by
    rw [ended_during_free] at he
    exact outcome_during_in_time h step work ht he
  late := fun ht he => by
    rw [ended_during_free] at he
    rw [outcome_during_late h step work ht he, outcome_during_free]

/-- A step that takes no time and changes nothing. -/
def Immediate (x : Attempt (StateM σ) α) : Prop :=
  ∃ r : Except Failure α, ∀ t s, outcome x t s = (some (r, t), s)

theorem Immediate.pure (a : α) : Immediate (Pure.pure a : Attempt (StateM σ) α) :=
  ⟨.ok a, fun _ _ => rfl⟩

theorem Immediate.throw (f : Failure) : Immediate (throw f : Attempt (StateM σ) α) :=
  ⟨.error f, fun _ _ => rfl⟩

/-- Such a step after another neither moves its end nor changes the state. -/
theorem bind_immediate {f : α → Attempt (StateM σ) β} (hf : ∀ a, Immediate (f a))
    (x : Attempt (StateM σ) α) (t : Span) (s : σ) :
    (outcome (x >>= f) t s).2 = (outcome x t s).2 ∧
      ended (outcome (x >>= f) t s) = ended (outcome x t s) := by
  rw [outcome_bind]
  obtain ⟨_ | ⟨_ | a, e⟩, s'⟩ := outcome x t s
  · exact ⟨rfl, rfl⟩
  · exact ⟨rfl, rfl⟩
  · obtain ⟨r, hr⟩ := hf a
    show (outcome (f a) e s').2 = s' ∧ ended (outcome (f a) e s') = some e
    rw [hr]
    exact ⟨rfl, rfl⟩

theorem Follows.bind_immediate {step : Step} {bound free : Attempt (StateM σ) α}
    (h : Follows limit i step bound free) {f : α → Attempt (StateM σ) β}
    (hf : ∀ a, Immediate (f a)) : Follows limit i step (bound >>= f) (free >>= f) where
  in_time := fun {t s} ht he => by
    rw [(Agent.bind_immediate hf free t s).2] at he
    rw [outcome_bind, outcome_bind, h.in_time ht he]
  late := fun {t s} ht he => by
    obtain ⟨hstate, hended⟩ := Agent.bind_immediate hf free t s
    rw [hended] at he
    rw [outcome_bind, h.late ht he, hstate]

/-- A step that takes no time ends before any limit that it begins before. -/
theorem Follows.of_immediate {x : Attempt (StateM σ) α} (hx : Immediate x) (step : Step) :
    Follows limit i step x x where
  in_time := fun _ _ => rfl
  late := fun {t s} ht he => by
    obtain ⟨r, hr⟩ := hx
    rw [hr] at he
    exact absurd he (by simpa [ended, instant] using ht)

theorem Follows.checkpoint (h : ctx.Limits limit i) {step : Step} (at' : Step)
    {bound free : Unit → Attempt (StateM σ) α} (hsteps : Follows limit i step (bound ()) (free ())) :
    Follows limit i step (checkpoint ctx at' >>= bound) (checkpoint {} at' >>= free) := by
  have hfree : ∀ t s, outcome (Agent.checkpoint {} at' >>= free) t s = outcome (free ()) t s := by
    intro t s
    rw [outcome_bind, outcome_checkpoint]
    rfl
  have hbound : ∀ {t : Span} {s}, t.nanos < limit.nanos →
      outcome (Agent.checkpoint ctx at' >>= bound) t s = outcome (bound ()) t s := by
    intro t s ht
    rw [outcome_bind, outcome_checkpoint, h.check ht]
  constructor
  · intro t s ht he
    rw [hfree] at he ⊢
    rw [hbound ht, hsteps.in_time ht he]
  · intro t s ht he
    rw [hfree] at he ⊢
    rw [hbound ht, hsteps.late ht he]

end Following

/-! ### The steps of a run -/

section Steps

variable {σ : Type} (a : Agent (StateM σ)) {ctx : Context} {limit : Span} {i : Interruption}

/-- The history in an answer of the ledger. -/
def recalled (depth : Nat) :
    Except Ledger.Failure (List Task) → Attempt (StateM σ) (List Reasoning.PastTask)
  | .error f => throw (.storage f)
  | .ok tasks => return (tasks.take depth).map .of

theorem recalled_immediate (depth : Nat) (r : Except Ledger.Failure (List Task)) :
    Immediate (recalled (σ := σ) depth r) := by
  cases r with
  | error f => exact .throw _
  | ok tasks => exact .pure _

theorem recallHistory_eq (ctx : Context) :
    a.recallHistory ctx = checkpoint ctx .history >>= fun _ =>
      if a.options.memoryDepth == 0 then pure []
      else during ctx .history (a.ledger.recent a.options.memoryDepth) >>=
        recalled a.options.memoryDepth := rfl

theorem recallHistory_follows (h : ctx.Limits limit i) :
    Follows limit i .history (a.recallHistory ctx) (a.recallHistory {}) := by
  rw [recallHistory_eq, recallHistory_eq]
  refine Follows.checkpoint h .history ?_
  split
  · exact .of_immediate (.pure []) .history
  · exact (Follows.during h .history _).bind_immediate (recalled_immediate _)

/-- The cards in an answer to a lookup. -/
def lookedUp : Except Knowledge.Failure (List Knowledge.Card) →
    Attempt (StateM σ) (List Knowledge.Card)
  | .error _ => return []
  | .ok cards => return cards

theorem lookedUp_immediate (r : Except Knowledge.Failure (List Knowledge.Card)) :
    Immediate (lookedUp (σ := σ) r) := by
  cases r with
  | error f => exact .pure _
  | ok cards => exact .pure _

theorem lookupKnowledge_eq (ctx : Context) (goal action : String) :
    a.lookupKnowledge ctx goal action =
      if a.knowledge.isActive then
        during ctx .knowledge (a.knowledge.lookup goal action) >>= lookedUp
      else pure [] := by
  unfold lookupKnowledge
  cases a.knowledge.isActive with
  | false => rfl
  | true => rfl

theorem lookupKnowledge_follows (h : ctx.Limits limit i) (goal action : String) :
    Follows limit i .knowledge (a.lookupKnowledge ctx goal action)
      (a.lookupKnowledge {} goal action) := by
  rw [lookupKnowledge_eq, lookupKnowledge_eq]
  split
  · exact (Follows.during h .knowledge _).bind_immediate lookedUp_immediate
  · exact .of_immediate (.pure []) .knowledge

/-- A request to the backend within its timeout. -/
def reasoningWork (r : Reasoning.Request) :
    StateM σ (Work (Except Reasoning.Failure Reasoning.Reply)) :=
  let budget := a.options.llmTimeout.getD a.reasoningTimeout
  (·.within budget (.error (.timedOut budget))) <$> a.generate r

theorem reasoningWork_state (r : Reasoning.Request) (s : σ) :
    (a.reasoningWork r s).2 = (a.generate r s).2 := rfl

/-- The reply in an answer of the backend. -/
def replied : Except Reasoning.Failure Reasoning.Reply → Attempt (StateM σ) Reasoning.Reply
  | .error f => throw (.reasoning f)
  | .ok reply => if Text.saysNothing reply.reply then throw (.reasoning .emptyReply) else return reply

theorem replied_immediate (r : Except Reasoning.Failure Reasoning.Reply) :
    Immediate (replied (σ := σ) r) := by
  cases r with
  | error f => exact .throw _
  | ok reply =>
    show Immediate (if Text.saysNothing reply.reply then _ else _)
    split
    · exact .throw _
    · exact .pure _

theorem reason_eq (ctx : Context) (r : Reasoning.Request) :
    a.reason ctx r = during ctx .reasoning (a.reasoningWork r) >>= replied := rfl

theorem reason_follows (h : ctx.Limits limit i) (r : Reasoning.Request) :
    Follows limit i .reasoning (a.reason ctx r) (a.reason {} r) := by
  rw [reason_eq, reason_eq]
  exact (Follows.during h .reasoning _).bind_immediate replied_immediate

/-- The failure of a chain action that times out. -/
def lateOutcome (budget : Span) : Except Chain.Failure Chain.Outcome := .error (.timedOut budget)

/-- The timeout of a chain action that begins at an instant. -/
def chainBudget (ctx : Context) (t : Span) : Span :=
  match ctx.remaining t with
  | some left => if left.nanos ≤ a.options.chainTimeout.nanos then left else a.options.chainTimeout
  | none => a.options.chainTimeout

/-- A chain action within a timeout. -/
def chainWork (d : Task.Draft) (budget : Span) :
    StateM σ (Work (Except Chain.Failure Chain.Outcome)) :=
  (·.within budget (lateOutcome budget)) <$> a.execute d.chainAction d.address

theorem chainWork_state (d : Task.Draft) (budget : Span) (s : σ) :
    (a.chainWork d budget s).2 = (a.execute d.chainAction d.address s).2 := rfl

/-- A draft with the result of its chain action. -/
def concluded (d : Task.Draft) : Except Chain.Failure Chain.Outcome → Attempt (StateM σ) Task.Draft
  | .ok o => return d.withOutcome (observed d.chainAction o)
  | .error f => return d.withFailure (failureText d.chainAction f)

theorem concluded_immediate (d : Task.Draft) (r : Except Chain.Failure Chain.Outcome) :
    Immediate (concluded (σ := σ) d r) := by
  cases r with
  | ok o => exact .pure _
  | error f => exact .pure _

theorem outcome_executeChain (ctx : Context) {d : Task.Draft} (hd : d.chainAction.isEmpty = false)
    (t : Span) (s : σ) :
    outcome (a.executeChain ctx d) t s =
      outcome (during ctx .chain (a.chainWork d (a.chainBudget ctx t)) >>= concluded d) t s := by
  unfold executeChain
  rw [hd]
  rfl

/-- The timeout is the agent's own, or a shorter one that does not end before the limit. -/
theorem chainBudget_cases (h : ctx.Limits limit i) (t : Span) :
    a.chainBudget ctx t = a.options.chainTimeout ∨
      (a.chainBudget ctx t).nanos ≤ a.options.chainTimeout.nanos ∧
        limit.nanos ≤ t.nanos + (a.chainBudget ctx t).nanos := by
  unfold chainBudget Context.remaining
  cases hd : ctx.deadline with
  | none => exact .inl rfl
  | some d =>
    have hle := h.le_deadline hd
    simp only [Option.map_some]
    split
    · rename_i hleft
      refine .inr ⟨hleft, ?_⟩
      show limit.nanos ≤ t.nanos + (d.nanos - t.nanos)
      omega
    · exact .inl rfl

section Budgets

variable {α : Type} {t budget full : Span} {late late' : α}

theorem instant_some (t d : Span) : instant (some (t + d)) = (t.nanos + d.nanos : ℕ) := rfl

/-- Work within a timeout ends at its end or at the timeout, whichever comes first. -/
theorem instant_within (t budget : Span) (late : α) (w : Work α) :
    instant ((w.within budget late).takes.map (t + ·)) =
      min (instant (w.takes.map (t + ·))) (t.nanos + budget.nanos : ℕ) := by
  obtain ⟨_ | d, yields⟩ := w
  · exact (min_eq_right le_top).symm
  · by_cases hd : d.nanos ≤ budget.nanos
    · simp only [Work.within, if_pos hd, Option.map_some, instant_some]
      exact (min_eq_left (by exact_mod_cast Nat.add_le_add_left hd _)).symm
    · simp only [Work.within, if_neg hd, Option.map_some, instant_some]
      exact (min_eq_right (by exact_mod_cast (by omega))).symm

/-- Work that ends before the limit is within any timeout that does not. -/
theorem within_in_time (w : Work α) (hbudget : budget.nanos ≤ full.nanos)
    (hlimit : limit.nanos ≤ t.nanos + budget.nanos)
    (he : instant ((w.within full late').takes.map (t + ·)) < limit.nanos) :
    w.within budget late = w.within full late' := by
  rw [instant_within, min_lt_iff] at he
  have hfull : ¬ ((t.nanos + full.nanos : ℕ) : ℕ∞) < limit.nanos := by
    rw [Nat.cast_lt]
    omega
  have hw := he.resolve_right hfull
  obtain ⟨_ | d, yields⟩ := w
  · exact absurd hw not_top_lt
  · rw [Option.map_some, instant_some, Nat.cast_lt] at hw
    have hd : d.nanos ≤ budget.nanos := by omega
    simp only [Work.within, if_pos hd, if_pos (Nat.le_trans hd hbudget)]

/-- Work that does not end before the limit also does not under a timeout that does not. -/
theorem within_late (w : Work α) (hlimit : limit.nanos ≤ t.nanos + budget.nanos)
    (he : limit.nanos ≤ instant ((w.within full late').takes.map (t + ·))) :
    limit.nanos ≤ instant ((w.within budget late).takes.map (t + ·)) := by
  rw [instant_within] at he ⊢
  rw [le_min_iff] at he ⊢
  exact ⟨he.1, by exact_mod_cast hlimit⟩

end Budgets

/-- A cut timeout makes no difference before the limit, and does not end before it. -/
theorem executeChain_follows (h : ctx.Limits limit i) {d : Task.Draft}
    (hd : d.chainAction.isEmpty = false) :
    Follows limit i .chain (a.executeChain ctx d) (a.executeChain {} d) := by
  have hsteps (budget : Span) := (Follows.during h .chain (a.chainWork d budget)).bind_immediate
    (concluded_immediate d)
  have hended (budget : Span) (t : Span) (s : σ) :
      ended (outcome (during {} .chain (a.chainWork d budget) >>= concluded d) t s) =
        (a.chainWork d budget s).1.takes.map (t + ·) := by
    rw [(bind_immediate (concluded_immediate d) _ t s).2, ended_during_free]
  constructor
  · intro t s ht he
    rw [outcome_executeChain a {} hd, hended] at he
    rw [outcome_executeChain a ctx hd, outcome_executeChain a {} hd]
    obtain hfull | ⟨hshort, hlimit⟩ := a.chainBudget_cases h t
    · rw [hfull]
      exact (hsteps _).in_time ht (by rwa [hended])
    · have hsame : a.chainWork d (a.chainBudget ctx t) s = a.chainWork d a.options.chainTimeout s :=
        Prod.ext (within_in_time _ hshort hlimit he) rfl
      rw [(hsteps _).in_time ht (by rwa [hended, hsame]), outcome_bind, outcome_bind,
        outcome_during_free, outcome_during_free, hsame]
      rfl
  · intro t s ht he
    rw [outcome_executeChain a {} hd, hended] at he
    rw [outcome_executeChain a ctx hd, outcome_executeChain a {} hd]
    have hstate (budget : Span) :
        (outcome (during {} .chain (a.chainWork d budget) >>= concluded d) t s).2 =
          (a.execute d.chainAction d.address s).2 := by
      rw [(bind_immediate (concluded_immediate d) _ t s).1, outcome_during_free]
      exact a.chainWork_state d budget s
    have hlate : limit.nanos ≤
        instant ((a.chainWork d (a.chainBudget ctx t) s).1.takes.map (t + ·)) := by
      obtain hfull | ⟨-, hlimit⟩ := a.chainBudget_cases h t
      · rwa [hfull]
      · exact within_late _ hlimit he
    rw [(hsteps _).late ht (by rwa [hended]), hstate, hstate]

end Steps

end ChainAgent.Agent
