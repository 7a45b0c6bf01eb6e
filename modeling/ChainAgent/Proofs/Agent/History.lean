import ChainAgent.Proofs.Agent.Persisted

/-! The history of a run.

The first step of a run reads its ledger, so the history in its request is that of the ledger at its
start (`recalled_of_asked`). In a ledger that was empty at first ids ascend and times do not
decrease, whatever the clock says, so its newest tasks are those stored last: the history of a run
has the tasks of the runs before it, the last one first (`history_of_turns`). -/
namespace ChainAgent.Agent

open Time (Span Work)

section Recalling

variable {σ : Type} {a : Agent (StateM σ)} {store : σ → Ledger.Store}

/-- An agent recalls the tasks of a ledger, which may return more rows than requested: up to the
limit they are the newest tasks. -/
def RecallsFrom (a : Agent (StateM σ)) (store : σ → Ledger.Store) : Prop :=
  ∀ limit s tasks, (a.ledger.recent limit s).1.yields = .ok tasks →
    ∃ asked, limit ≤ asked ∧ tasks.take limit = ((store s).recent asked).take limit

/-- The history of a run is that of its ledger when the run begins. -/
theorem RecallsFrom.historyStory (h : a.RecallsFrom store) {s left : σ} {calls : List Call}
    {history : List Reasoning.PastTask}
    (hstory : a.historyStory s calls (some (.ok history)) left) :
    ∃ asked, a.options.memoryDepth ≤ asked ∧
      history = (((store s).recent asked).take a.options.memoryDepth).map .of := by
  unfold Agent.historyStory at hstory
  split at hstory
  · rename_i hdepth
    have hnone : a.options.memoryDepth = 0 := beq_iff_eq.mp hdepth
    cases hstory
    exact ⟨0, by rw [hnone], by rw [hnone, List.take_zero, List.map_nil]⟩
  · obtain ⟨-, hanswer, -⟩ := hstory.calls_of_ok
    unfold pastOf at hanswer
    split at hanswer
    · cases hanswer
    · rename_i tasks hyields
      obtain ⟨asked, hasked, htasks⟩ := h _ _ _ hyields
      cases hanswer
      exact ⟨asked, hasked, by rw [htasks]⟩

/-- The backend is asked after the history has been recalled, and with that history. -/
theorem attemptStory_asked {goal action address : String} {s left : σ} {calls : List Call}
    {r : Option (Except Failure Task)} (h : a.attemptStory goal action address s calls r left)
    {q : Reasoning.Request} {w : Work (Except Reasoning.Failure Reasoning.Reply)}
    (hc : .generate q w ∈ calls) :
    ∃ front between, a.historyStory s front (some (.ok q.history)) between := by
  have hhistory : Call.Kind.generate ∉ a.historyPlan := fun hmem =>
    absurd (eq_of_mem_historyPlan hmem) (by decide)
  have hknowledge : Call.Kind.generate ∉ a.knowledgePlan := fun hmem =>
    absurd (eq_of_mem_knowledgePlan hmem) (by decide)
  obtain ⟨front, history, between, past, rfl, hrecalled, hpast, hc⟩ :=
    h.went_of_mem a.historyStory_inOrder hc hhistory
  obtain ⟨_, cards, _, told, rfl, -, htold, hc⟩ :=
    hpast.went_of_mem (a.knowledgeStory_inOrder goal action) hc hknowledge
  refine ⟨front, between, ?_⟩
  -- After the reply no backend is asked, so the request is that of the reasoning step.
  have hasked {calls : List Call} {r' : Option (Except Failure Reasoning.Reply)} {s left : σ}
      (hreason : a.reasoningStory ⟨goal, action, address, history, cards⟩ s calls r' left)
      (hc : .generate q w ∈ calls) : q.history = history := by
    cases hreason with
    | stopped i => exact absurd hc List.not_mem_nil
    | _ =>
      cases List.mem_singleton.mp hc
      rfl
  have hsame : q.history = history := by
    cases htold with
    | abandoned hreason => exact hasked hreason hc
    | failed hreason => exact hasked hreason hc
    | went hreason hdrafted =>
      obtain hfront | hback := List.mem_append.mp hc
      · exact hasked hreason hfront
      · have hmem := (a.draftedStory_inOrder _).kind_mem hdrafted hback
        obtain hchain | hwrite := List.mem_append.mp hmem
        · cases eq_of_mem_chainPlan hchain
        · exact absurd hwrite (by simp [Call.kind])
  rw [hsame]
  exact hrecalled

/-- **The history of a run has the newest tasks of its ledger when the run begins.** -/
theorem RecallsFrom.recalled_of_asked (h : a.RecallsFrom store) {ctx : Context}
    {goal action address : String} {s : σ} {q : Reasoning.Request}
    {w : Work (Except Reasoning.Failure Reasoning.Reply)}
    (hc : .generate q w ∈ a.calls ctx goal action address s) :
    ∃ asked, a.options.memoryDepth ≤ asked ∧
      q.history = (((store s).recent asked).take a.options.memoryDepth).map .of := by
  cases hgoal : Text.saysNothing goal with
  | true =>
    rw [a.calls_of_blank hgoal] at hc
    exact absurd hc List.not_mem_nil
  | false =>
    obtain ⟨-, hstory⟩ := a.run_story hgoal ctx action address s
    obtain ⟨front, between, hrecalled⟩ := attemptStory_asked hstory hc
    exact h.historyStory hrecalled

/-- **The history of a run has the tasks of the runs before it, the last one first**, as many as the
agent's memory depth. This holds for any clock, for runs in between that fail, and however many rows
the ledger returns. -/
theorem history_of_turns {s : σ} (hnew : (store s).IsNew) {front : List (Turn σ)} {turn : Turn σ}
    (hfront : ∀ earlier ∈ front, earlier.agent.StoresIn store)
    (hrecalls : turn.agent.RecallsFrom store)
    (hroom : ∀ j, store (after s front) = .journal j → j.count < 2 ^ 63) {q : Reasoning.Request}
    {w : Work (Except Reasoning.Failure Reasoning.Reply)}
    (hasked : .generate q w ∈ turn.calls (after s front)) :
    (store (after s front)).tasks = givenBy s front ∧
      q.history = ((givenBy s front).reverse.take turn.agent.options.memoryDepth).map .of := by
  obtain ⟨htasks, hcounts⟩ := after_grows hfront s
  rw [hnew.tasks, List.nil_append] at htasks
  obtain ⟨asked, hdepth, hhistory⟩ := hrecalls.recalled_of_asked hasked
  have hrecent := (hcounts hnew.countsUp).recent hroom asked
  refine ⟨htasks, ?_⟩
  rw [hhistory, hrecent, htasks, List.take_take, Nat.min_eq_left hdepth]

end Recalling

/-! ### Recalling in rehearsal -/

namespace Rehearsal

/-- A scripted agent recalls the tasks of its ledger, with some extra rows. -/
theorem agent_recallsFrom (c : Cast) : (agent c).RecallsFrom Stage.store := by
  intro limit stage tasks hyields
  refine ⟨limit + c.extraRows, Nat.le_add_right _ _, ?_⟩
  have hread : (agent c).ledger.recent limit =
      c.reading.passing do return .ok ((← get).store.recent (limit + c.extraRows)) := rfl
  rw [hread] at hyields
  unfold Switch.passing at hyields
  cases hfailure : c.reading.failure with
  | some f =>
    rw [hfailure] at hyields
    cases hyields
  | none =>
    rw [hfailure] at hyields
    cases hyields
    rfl

/-- Collaborators of an agent of memory depth one, with two extra rows. -/
def mindful (voice : Voice) : Cast :=
  {terse ⟨voice, some ⟨1⟩, ⟨8⟩⟩ (.error .notConfigured) with
    extraRows := 2, options := ⟨1, none, ⟨9⟩⟩}

/-- Two runs that store a task, and one that fails. -/
def mindfulTurns : List (Turn Stage) :=
  [⟨agent (mindful .echo), {}, "one", "", ""⟩, ⟨agent (mindful .echo), {}, "two", "", ""⟩,
    ⟨agent (mindful (.failing .emptyReply)), {}, "three", "", ""⟩]

def fourthTurn : Turn Stage := ⟨agent (mindful .echo), {}, "four", "", ""⟩

/-- The history of the next run has the second task. -/
theorem history_after_failure :
    ∃ (t u : Task) (q : Reasoning.Request) (w : Work (Except Reasoning.Failure Reasoning.Reply)),
      givenBy fresh mindfulTurns = [t, u] ∧ u.goal = "two" ∧
      .generate q w ∈ fourthTurn.calls (after fresh mindfulTurns) ∧ q.history = [.of u] := by
  have hnew : (Stage.store fresh).IsNew := .database none 0
  have hfront : ∀ earlier ∈ mindfulTurns, earlier.agent.StoresIn Stage.store := by
    intro turn hturn
    simp only [mindfulTurns, List.mem_cons, List.not_mem_nil, or_false] at hturn
    rcases hturn with rfl | rfl | rfl <;> exact agent_storesIn _ fun _ _ _ => rfl
  obtain ⟨t, u, hgiven, hgoal⟩ : ∃ t u : Task, givenBy fresh mindfulTurns = [t, u] ∧
      u.goal = "two" := ⟨_, _, rfl, rfl⟩
  obtain ⟨q, w, hasked⟩ : ∃ q w, Call.generate q w ∈ fourthTurn.calls (after fresh mindfulTurns) :=
    ⟨_, _, List.mem_cons_of_mem _ List.mem_cons_self⟩
  obtain ⟨-, hhistory⟩ := history_of_turns hnew hfront (agent_recallsFrom _) nofun hasked
  rw [hgiven] at hhistory
  exact ⟨t, u, q, w, hgiven, hgoal, hasked, hhistory⟩

end Rehearsal

end ChainAgent.Agent
