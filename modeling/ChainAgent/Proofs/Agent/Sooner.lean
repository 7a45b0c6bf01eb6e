import ChainAgent.Proofs.Agent.Calls

/-! Steps that begin sooner.

A run without a knowledge source is where a run with a failing lookup is later. From there on both
do the same: a step that completes under a context also completes under it when it begins sooner,
with the same result (`Hastens`). The collaborators after the lookup must depend on the same view of
the state, which the lookup leaves as it is (`Sees`). The timeout of the chain action is cut less
the sooner it begins, which makes no difference to an action that ends in time
(`within_chainBudget`). -/
namespace ChainAgent.Agent

open Time (Span Work Course)

section Sooner

variable {σ α β γ : Type}

/-- Whether a failure is an interruption of the run. -/
def Failure.IsInterruption : Failure → Prop
  | .cancelled _ => True
  | .timedOut _ => True
  | _ => False

/-- Whether a step or a run is not interrupted. -/
def Completes (r : Except Failure α) : Prop := ∀ f, r = .error f → ¬ f.IsInterruption

theorem not_completes_at (step : Step) (i : Interruption) :
    ¬ Completes (.error (i.at step) : Except Failure α) := by
  intro h
  cases i <;> exact h _ rfl trivial

theorem completes_error {f : Failure} :
    Completes (.error f : Except Failure α) ↔ ¬ f.IsInterruption :=
  ⟨fun h => h f rfl, fun h g hg => by cases hg; exact h⟩

theorem completes_ok (a : α) : Completes (.ok a) := nofun

/-- A call that depends on the state through a view alone. -/
def GoesBy (view : σ → β) (work : StateM σ α) : Prop :=
  ∀ ⦃s s₀⦄, view s₀ = view s → (work s₀).1 = (work s).1 ∧ view (work s₀).2 = view (work s).2

/-- The collaborators after the lookup depend on a view that the lookup leaves as it is. -/
structure Sees (a : Agent (StateM σ)) (view : σ → β) : Prop where
  lookup : ∀ goal action s, view (a.knowledge.lookup goal action s).2 = view s
  generate : ∀ r, GoesBy view (a.generate r)
  execute : ∀ action address, GoesBy view (a.execute action address)
  prepare : GoesBy view a.ledger.prepare
  record : ∀ d, GoesBy view (a.ledger.record d)

/-- A step that completes has the same result when it begins sooner. -/
def Hastens (view : σ → β) (x : Attempt (StateM σ) α) : Prop :=
  ∀ ⦃t t₀ e : Span⦄ ⦃s s₀ s' : σ⦄ ⦃r : Except Failure α⦄, t₀.nanos ≤ t.nanos → view s₀ = view s →
    outcome x t s = (some (r, e), s') → Completes r →
    ∃ e₀ s₀', e₀.nanos ≤ e.nanos ∧ outcome x t₀ s₀ = (some (r, e₀), s₀') ∧ view s₀' = view s'

variable {view : σ → β}

theorem Hastens.bind {x : Attempt (StateM σ) α} {f : α → Attempt (StateM σ) γ}
    (hx : Hastens view x) (hf : ∀ a, Hastens view (f a)) : Hastens view (x >>= f) := by
  intro t t₀ e s s₀ s' r ht hview hend hcompletes
  rw [outcome_bind] at hend
  rcases hfirst : outcome x t s with ⟨_ | ⟨g | a, between⟩, u⟩
  · rw [hfirst] at hend
    cases hend
  · rw [hfirst] at hend
    cases hend
    have hcompletes' : Completes (.error g : Except Failure α) :=
      completes_error.mpr (completes_error.mp hcompletes)
    obtain ⟨e₀, u₀, hle, hfirst₀, hview₀⟩ := hx ht hview hfirst hcompletes'
    refine ⟨e₀, u₀, hle, ?_, hview₀⟩
    rw [outcome_bind, hfirst₀]
  · rw [hfirst] at hend
    obtain ⟨between₀, u₀, hle, hfirst₀, hview₀⟩ := hx ht hview hfirst (completes_ok a)
    obtain ⟨e₀, u₀', hle', hrest, hview'⟩ := hf a hle hview₀ hend hcompletes
    refine ⟨e₀, u₀', hle', ?_, hview'⟩
    rw [outcome_bind, hfirst₀]
    exact hrest

theorem Says.hastens {f : γ → Attempt (StateM σ) α} {said : γ → Except Failure α} (h : Says f said)
    (b : γ) : Hastens view (f b) := by
  intro t t₀ e s s₀ s' r ht hview hend _
  rw [h] at hend
  cases hend
  exact ⟨t₀, s₀, ht, h b t₀ s₀, hview⟩

theorem hastens_pure (a : α) : Hastens view (pure a : Attempt (StateM σ) α) := by
  intro t t₀ e s s₀ s' r ht hview hend _
  cases hend
  exact ⟨t₀, s₀, ht, rfl, hview⟩

/-! ### Contexts -/

/-- A run that is not interrupted by a check is not interrupted by an earlier one. -/
theorem check_earlier {ctx : Context} {t t₀ : Span} (ht : t₀.nanos ≤ t.nanos)
    (h : ctx.check t = none) : ctx.check t₀ = none := by
  have hlater {limit : Option Span} (hany : limit.any (·.nanos ≤ t.nanos) = false) :
      limit.any (·.nanos ≤ t₀.nanos) = false := by
    cases limit with
    | none => rfl
    | some l =>
      have hlt : t.nanos < l.nanos := by simpa using hany
      simpa using Nat.lt_of_le_of_lt ht hlt
  unfold Context.check at h ⊢
  split at h
  · cases h
  · rename_i hcancel
    split at h
    · cases h
    · rename_i hexpired
      have hcancel₀ : ctx.isCancelled t₀ = false := hlater (Bool.eq_false_iff.mpr hcancel)
      have hexpired₀ : ctx.isExpired t₀ = false := hlater (Bool.eq_false_iff.mpr hexpired)
      rw [hcancel₀, hexpired₀]
      rfl

theorem interrupting_earlier {ctx : Context} {e e₀ : Span} (he : e₀.nanos ≤ e.nanos)
    (h : ctx.interrupting (some e) = none) : ctx.interrupting (some e₀) = none := by
  unfold Context.interrupting at h ⊢
  rw [Option.filter_eq_none_iff] at h ⊢
  intro limit hlimit
  have hbefore : e.nanos < limit.1.nanos := by simpa using h limit hlimit
  simpa using Nat.lt_of_le_of_lt he hbefore

/-- A caller that waits until an instant waits until an earlier one. -/
theorem abandoned_earlier {ctx : Context} {e e₀ : Span} (he : e₀.nanos ≤ e.nanos)
    (h : (ctx.abandonAt.any fun limit => limit.nanos < e.nanos) = false) :
    (ctx.abandonAt.any fun limit => limit.nanos < e₀.nanos) = false := by
  cases hlimit : ctx.abandonAt with
  | none => rfl
  | some limit =>
    rw [hlimit] at h
    have hle : e.nanos ≤ limit.nanos := by simpa using h
    simpa using Nat.le_trans he hle

theorem add_le_add {t t₀ : Span} (ht : t₀.nanos ≤ t.nanos) (d : Span) :
    (t₀ + d).nanos ≤ (t + d).nanos := Nat.add_le_add_right ht d.nanos

/-- Work that gives its result at a step also gives it when it begins sooner. -/
theorem settled_earlier {ctx : Context} {step : Step} {t t₀ e : Span} {w : Work α} {a : α}
    (ht : t₀.nanos ≤ t.nanos) (h : settled ctx step t w = some (.ok a, e)) :
    ∃ e₀, e₀.nanos ≤ e.nanos ∧ settled ctx step t₀ w = some (.ok a, e₀) := by
  obtain ⟨hyields, htakes, hfree, hawaited⟩ := settled_eq_ok.mp h
  obtain ⟨d, hd, rfl⟩ := Option.map_eq_some_iff.mp htakes
  have hle := add_le_add ht d
  refine ⟨t₀ + d, hle, settled_eq_ok.mpr ⟨hyields, by rw [hd]; rfl, ?_, ?_⟩⟩
  · exact interrupting_earlier hle hfree
  · exact abandoned_earlier hle hawaited

theorem waited_earlier {ctx : Context} {t t₀ e : Span} {w : Work α} {a : α}
    (ht : t₀.nanos ≤ t.nanos) (h : waited ctx t w = some (a, e)) :
    ∃ e₀, e₀.nanos ≤ e.nanos ∧ waited ctx t₀ w = some (a, e₀) := by
  unfold waited awaited at h ⊢
  obtain ⟨d, hd, hawaited⟩ := Option.bind_eq_some_iff.mp h
  split at hawaited
  · cases hawaited
  · rename_i hwaiting
    cases hawaited
    have hle := add_le_add ht d
    have hwaiting₀ : (ctx.abandonAt.any fun limit => limit.nanos < (t₀ + d).nanos) = false :=
      abandoned_earlier hle (by simpa using hwaiting)
    refine ⟨t₀ + d, hle, ?_⟩
    rw [hd, Option.bind_some, hwaiting₀]
    rfl

/-! ### Steps -/

/-- Work at a step that completes has given its result. -/
theorem settled_completes {ctx : Context} {step : Step} {t e : Span} {w : Work α}
    {r : Except Failure α} (h : settled ctx step t w = some (r, e)) (hcompletes : Completes r) :
    r = .ok w.yields := by
  obtain hnone | ⟨i, e', hstopped⟩ | ⟨e', hended⟩ := settled_cases ctx step t w
  · rw [hnone] at h
    cases h
  · rw [hstopped] at h
    cases h
    exact absurd hcompletes (not_completes_at step i)
  · rw [hended] at h
    cases h
    rfl

/-- Work that depends on a view, with the same result when it begins sooner. -/
theorem Hastens.during (ctx : Context) (step : Step) {work : StateM σ (Work α)}
    (hwork : GoesBy view work) : Hastens view (during ctx step work) := by
  intro t t₀ e s s₀ s' r ht hview hend hcompletes
  obtain ⟨hsame, hleft⟩ := hwork hview
  rw [outcome_during_settled] at hend
  cases hcheck : ctx.check t with
  | some i =>
    rw [hcheck] at hend
    cases hend
    exact absurd hcompletes (not_completes_at step i)
  | none =>
    rw [hcheck] at hend
    obtain ⟨hsettled, rfl⟩ := Prod.mk.inj hend
    obtain rfl := settled_completes hsettled hcompletes
    obtain ⟨e₀, hle, hsettled₀⟩ := settled_earlier ht hsettled
    refine ⟨e₀, (work s₀).2, hle, ?_, hleft⟩
    rw [outcome_during_settled, check_earlier ht hcheck, hsame, hsettled₀]

variable {a : Agent (StateM σ)}

theorem Sees.reason (h : a.Sees view) (ctx : Context) (r : Reasoning.Request) :
    Hastens view (a.reason ctx r) := by
  have hwork : GoesBy view (a.reasoningWork r) := by
    intro s s₀ hview
    obtain ⟨hsame, hleft⟩ := h.generate r hview
    refine ⟨?_, hleft⟩
    show (a.generate r s₀).1.within _ _ = (a.generate r s).1.within _ _
    rw [hsame]
  rw [reason_eq]
  exact (Hastens.during ctx .reasoning hwork).bind says_replied.hastens

/-- A chain action that is not interrupted is the one within the agent's own timeout, whether it
began then or sooner. -/
theorem outcome_executeChain_uncut (a : Agent (StateM σ)) {ctx : Context} {d : Task.Draft}
    (hd : d.chainAction.isEmpty = false) {t t₀ e : Span} {s : σ}
    {r : Except Chain.Failure Chain.Outcome} (ht : t₀.nanos ≤ t.nanos)
    (hended : settled ctx .chain t (a.chainWork d (a.chainBudget ctx t) s).1 = some (.ok r, e)) :
    outcome (a.executeChain ctx d) t₀ s =
      outcome (during ctx .chain (a.chainWork d a.options.chainTimeout) >>= concluded d) t₀ s := by
  have huncut : (a.chainWork d (a.chainBudget ctx t₀) s).1 =
      (a.chainWork d a.options.chainTimeout s).1 := a.within_chainBudget ht hended
  rw [outcome_executeChain a ctx hd, outcome_during_said (says_concluded d),
    outcome_during_said (says_concluded d), huncut, chainWork_state, chainWork_state]

theorem Sees.chainWork (h : a.Sees view) (d : Task.Draft) (budget : Span) :
    GoesBy view (a.chainWork d budget) := by
  intro s s₀ hview
  obtain ⟨hsame, hleft⟩ := h.execute d.chainAction d.address hview
  refine ⟨?_, hleft⟩
  show (a.execute d.chainAction d.address s₀).1.within _ _ = _
  rw [hsame]
  rfl

theorem Sees.executeChain (h : a.Sees view) (ctx : Context) (d : Task.Draft) :
    Hastens view (a.executeChain ctx d) := by
  cases hd : d.chainAction.isEmpty with
  | true =>
    have hskip : a.executeChain ctx d = pure d := by
      unfold Agent.executeChain
      rw [hd]
      rfl
    rw [hskip]
    exact hastens_pure d
  | false =>
    intro t t₀ e s s₀ s' r ht hview hend hcompletes
    have hsame (budget : Span) := (h.chainWork d budget hview).1
    -- the action has come to an end, so nothing has cut it short
    have hended : ∃ r e, settled ctx .chain t (a.chainWork d (a.chainBudget ctx t) s).1 =
        some (.ok r, e) := by
      rw [outcome_executeChain a ctx hd, outcome_during_said (says_concluded d)] at hend
      cases hcheck : ctx.check t with
      | some i =>
        rw [hcheck] at hend
        cases hend
        exact absurd hcompletes (not_completes_at .chain i)
      | none =>
        rw [hcheck] at hend
        obtain ⟨⟨r', e'⟩, hsettled, hr⟩ := Option.map_eq_some_iff.mp (Prod.mk.inj hend).1
        have hcompletes' : Completes r' := fun f hf =>
          hcompletes f (by cases hf; exact (Prod.mk.inj hr).1.symm)
        exact ⟨_, e', settled_completes hsettled hcompletes' ▸ hsettled⟩
    obtain ⟨r', e', hended⟩ := hended
    rw [outcome_executeChain_uncut a hd (Nat.le_refl t.nanos) hended] at hend
    rw [← hsame] at hended
    rw [outcome_executeChain_uncut a hd ht hended]
    exact (Hastens.during ctx .chain (h.chainWork d _)).bind (says_concluded d).hastens ht hview hend
      hcompletes

theorem Sees.persist (h : a.Sees view) (ctx : Context) (d : Task.Draft) :
    Hastens view (a.persist ctx d) := by
  intro t t₀ e s s₀ s' r ht hview hend hcompletes
  obtain ⟨hprepared, hbetween⟩ := h.prepare hview
  obtain ⟨hrecorded, hleft⟩ := h.record d hbetween
  rw [outcome_persist] at hend ⊢
  cases hcheck : ctx.check t with
  | some i =>
    rw [hcheck] at hend
    cases hend
    exact absurd hcompletes (not_completes_at .persist i)
  | none =>
    rw [hcheck] at hend
    rw [check_earlier ht hcheck, hprepared]
    dsimp only at hend ⊢
    rcases hwaited : waited ctx t (a.ledger.prepare s).1 with _ | ⟨f | u, e'⟩
    · rw [hwaited] at hend
      cases hend
    · rw [hwaited] at hend
      cases hend
      obtain ⟨e₀, hle, hwaited₀⟩ := waited_earlier ht hwaited
      refine ⟨e₀, _, hle, ?_, hbetween⟩
      rw [hwaited₀]
    · rw [hwaited] at hend
      cases hend
      obtain ⟨e₀, hle, hwaited₀⟩ := waited_earlier ht hwaited
      refine ⟨e₀, _, hle, ?_, hleft⟩
      rw [hwaited₀, ← hrecorded]

/-- From its request on, a run that completes has the same result when it begins sooner. -/
theorem Sees.requestedRun (h : a.Sees view) (ctx : Context) (r : Reasoning.Request) :
    Hastens view (a.requestedRun ctx r) :=
  (h.reason ctx r).bind fun _ => (h.executeChain ctx _).bind (h.persist ctx)

/-! ### Without knowledge -/

/-- The agent without a knowledge source. -/
def withoutKnowledge (a : Agent (StateM σ)) : Agent (StateM σ) := {a with knowledge := .absent}

/-- **A failing lookup makes no difference** to a run that completes, but for its time. -/
theorem Sees.recalledRun (h : a.Sees view) {ctx : Context} {goal action address : String}
    {history : List Reasoning.PastTask} {t e : Span} {s left : σ} {r : Except Failure Task}
    {f : Knowledge.Failure} (hfails : (a.knowledge.lookup goal action s).1.yields = .error f)
    (hend : outcome (a.recalledRun ctx goal action address history) t s = (some (r, e), left))
    (hcompletes : Completes r) :
    ∃ e₀ left₀, e₀.nanos ≤ e.nanos ∧
      outcome (a.withoutKnowledge.recalledRun ctx goal action address history) t s =
        (some (r, e₀), left₀) ∧ view left₀ = view left := by
  have hrequested : a.withoutKnowledge.recalledRun ctx goal action address history =
      a.requestedRun ctx ⟨goal, action, address, history, []⟩ := rfl
  rw [hrequested]
  unfold Agent.recalledRun at hend
  rw [outcome_bind, lookupKnowledge_eq] at hend
  cases hactive : a.knowledge.isActive with
  | false =>
    rw [hactive] at hend
    exact ⟨e, left, Nat.le_refl _, hend, rfl⟩
  | true =>
    rw [hactive, if_pos rfl, outcome_during_said says_lookedUp] at hend
    cases hcheck : ctx.check t with
    | some i =>
      rw [hcheck] at hend
      cases hend
      exact absurd hcompletes (not_completes_at .knowledge i)
    | none =>
      rw [hcheck] at hend
      dsimp only at hend
      obtain hnone | ⟨i, e', hstopped⟩ | ⟨e', hended⟩ :=
        settled_cases ctx .knowledge t (a.knowledge.lookup goal action s).1
      · rw [hnone] at hend
        cases hend
      · rw [hstopped] at hend
        cases hend
        exact absurd hcompletes (not_completes_at .knowledge i)
      · rw [hended, hfails] at hend
        obtain ⟨-, htakes, -⟩ := settled_eq_ok.mp hended
        obtain ⟨d, -, rfl⟩ := Option.map_eq_some_iff.mp htakes
        exact h.requestedRun ctx _ (Nat.le_add_right t.nanos d.nanos)
          (h.lookup goal action s).symm hend hcompletes

end Sooner

end ChainAgent.Agent
