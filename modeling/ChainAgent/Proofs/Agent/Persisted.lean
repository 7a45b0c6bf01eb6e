import ChainAgent.Proofs.Agent.Effects
import ChainAgent.Proofs.Ledger.Growth
import ChainAgent.Proofs.Text.Blank

/-! Tasks that runs store.

A run stores one task or nothing: its task is the last one of the ledger then, and reports the run's
inputs and results (`Reports`). In a ledger that was empty at first, whatever agents take turns at
it, the tasks are those that the runs returned, and each is found under its id
(`tasks_of_turns`). -/
namespace ChainAgent

open Time (Span Work Course)

/-- Work that ends within a timeout. -/
def Time.Work.InTime {α : Type} (w : Work α) (budget : Span) : Prop :=
  ∃ d, w.takes = some d ∧ d.nanos ≤ budget.nanos

namespace Agent

section Reports

variable {σ : Type} {a : Agent (StateM σ)}

theorem outcomeWithin_eq_ok {w : Work (Except Chain.Failure Chain.Outcome)} {o : Chain.Outcome} :
    a.outcomeWithin w = .ok o ↔ w.InTime a.options.chainTimeout ∧ w.yields = .ok o := by
  unfold outcomeWithin Work.within lateOutcome Work.InTime
  cases w.takes with
  | none => simp
  | some d => by_cases hd : d.nanos ≤ a.options.chainTimeout.nanos <;> simp [hd]

theorem draftOf_same (d : Task.Draft) (r : Except Chain.Failure Chain.Outcome) :
    (draftOf d r).goal = d.goal ∧ (draftOf d r).chainAction = d.chainAction ∧
      (draftOf d r).address = d.address ∧ (draftOf d r).reply = d.reply := by
  cases r <;> exact ⟨rfl, rfl, rfl, rfl⟩

theorem named_ne_empty (action rest : String) : "chain action `" ++ action ++ rest ≠ "" := by
  rw [ne_eq, String.append_eq_empty_iff, String.append_eq_empty_iff]
  rintro ⟨⟨hempty, -⟩, -⟩
  exact absurd hempty (by decide)

theorem observed_ne_empty (action : String) (o : Chain.Outcome) :
    (observed action o).observation ≠ "" := by
  unfold observed
  split
  · exact named_ne_empty action _
  · rename_i hsays
    intro hempty
    rw [hempty] at hsays
    exact hsays rfl

/-- Replacing an empty observation leaves the rest of an outcome. -/
theorem observed_same (action : String) (o : Chain.Outcome) :
    (observed action o).chainId = o.chainId ∧ (observed action o).blockNumber = o.blockNumber := by
  unfold observed
  split <;> exact ⟨rfl, rfl⟩

/-- The observations of an executed action are not blank. -/
theorem draftOf_observations (d : Task.Draft) (r : Except Chain.Failure Chain.Outcome) :
    (draftOf d r).observations ≠ "" := by
  cases r with
  | error f =>
    intro hempty
    have htext : "chain action `" ++ d.chainAction ++ "` failed: " ++ f.message = "" := hempty
    exact named_ne_empty d.chainAction _ (String.append_eq_empty_iff.mp htext).1
  | ok o => exact observed_ne_empty d.chainAction o

/-- What a stored task reports of its run: the chain's outcome is in it if the action ended within
its timeout. -/
structure Reports (a : Agent (StateM σ)) (goal action address : String) (calls : List Call)
    (t : Task) : Prop where
  goal : t.goal = Text.trim goal ∧ t.goal ≠ ""
  chainAction : t.chainAction = Text.trim action
  address : t.address = Text.trim address
  reply : Text.saysNothing t.reply = false
  observations : t.observations ≠ "" ↔ t.chainAction ≠ ""
  outcome : ∀ action' address' w o, .execute action' address' w ∈ calls →
    w.InTime a.options.chainTimeout → w.yields = .ok o →
    t.chainId = o.chainId.getD "" ∧ t.blockNumber = o.blockNumber.getD ""
  no_outcome : (¬ ∃ action' address' w o, .execute action' address' w ∈ calls ∧
      w.InTime a.options.chainTimeout ∧ w.yields = .ok o) → t.chainId = "" ∧ t.blockNumber = ""
  times : t.updatedAt = t.createdAt

variable {goal action address : String} {s left : σ} {calls : List Call}
  {r : Option (Except Failure Task)}

/-- The draft of a write has the reply, and the result of the chain action if there is one. -/
theorem attemptStory_draft (h : a.attemptStory goal action address s calls r left) {d : Task.Draft}
    {answer : Except Ledger.Failure Task} (hc : .record d answer ∈ calls) :
    ∃ q reply, q.goal = goal ∧ q.chainAction = action ∧ q.address = address ∧
      Text.saysNothing reply.reply = false ∧
      ((action = "" ∧ d = draftFor q reply) ∨
        (action ≠ "" ∧ ∃ w, .execute action address w ∈ calls ∧
          d = draftOf (draftFor q reply) (a.outcomeWithin w))) := by
  obtain ⟨front, history, cards, w', reply, _, back, rfl, -, hsays, hdrafted, hcback⟩ :=
    attemptStory_replied h hc (.inr (.inr rfl))
  obtain ⟨d', asked, _, written, rfl, hwriting, hcwritten, hdraft⟩ :=
    draftedStory_written hdrafted hcback (.inr rfl)
  obtain rfl : d = d' := by
    cases hwriting with
    | recorded _ =>
      rw [List.mem_cons, List.mem_singleton] at hcwritten
      cases hcwritten.resolve_left nofun
      rfl
    | stopped i => exact absurd hcwritten List.not_mem_nil
    | _ => exact absurd hcwritten (by simp)
  refine ⟨⟨goal, action, address, history, cards⟩, reply, rfl, rfl, rfl, hsays, ?_⟩
  obtain ⟨hnone, -, hd⟩ | ⟨haction, w, rfl, hd⟩ := hdraft
  · exact .inl ⟨hnone, hd⟩
  · refine .inr ⟨haction, w, ?_, hd⟩
    simp [draftFor, Task.Draft.withReasoning]

/-- **The draft of a write reports its run.** -/
theorem attemptStory_reports (hgoal : Text.saysNothing goal = false)
    (h : a.attemptStory (Text.trim goal) (Text.trim action) (Text.trim address) s calls r left)
    {d : Task.Draft} {answer : Except Ledger.Failure Task} (hc : .record d answer ∈ calls)
    (id createdAt : Int64) : Reports a goal action address calls (d.stored id createdAt) := by
  have hne := Text.trim_ne_empty hgoal
  obtain ⟨q, reply, hqgoal, hqaction, hqaddress, hsays, hdraft⟩ := attemptStory_draft h hc
  obtain ⟨hnone, rfl⟩ | ⟨haction, w, hexecuted, rfl⟩ := hdraft
  · have hunasked {action' address' : String} {w : Work (Except Chain.Failure Chain.Outcome)} :
        .execute action' address' w ∉ calls :=
      fun hexecute => (attemptStory_executed h hexecute).1 hnone
    exact {
      goal := ⟨hqgoal, fun hempty => hne (hqgoal.symm.trans hempty)⟩
      chainAction := hqaction
      address := hqaddress
      reply := hsays
      observations := ⟨fun hobserved => absurd rfl hobserved,
        fun haction => absurd (hqaction.trans hnone) haction⟩
      outcome := fun _ _ _ _ hexecute => absurd hexecute hunasked
      no_outcome := fun _ => ⟨rfl, rfl⟩
      times := rfl }
  · obtain ⟨hdgoal, hdaction, hdaddress, hdreply⟩ :=
      draftOf_same (draftFor q reply) (a.outcomeWithin w)
    have hsame : (draftOf (draftFor q reply) (a.outcomeWithin w)).goal = Text.trim goal :=
      hdgoal.trans hqgoal
    have hsameAction : (draftOf (draftFor q reply) (a.outcomeWithin w)).chainAction =
        Text.trim action := hdaction.trans hqaction
    exact {
      goal := ⟨hsame, fun hempty => hne (hsame.symm.trans hempty)⟩
      chainAction := hsameAction
      address := hdaddress.trans hqaddress
      reply := (congrArg Text.saysNothing hdreply).trans hsays
      observations :=
        ⟨fun _ hempty => haction (hsameAction.symm.trans hempty), fun _ => draftOf_observations _ _⟩
      outcome := by
        intro action' address' w' o hc' hintime hyields
        cases attemptStory_unique h hc' hexecuted rfl
        rw [outcomeWithin_eq_ok.mpr ⟨hintime, hyields⟩]
        obtain ⟨hid, hblock⟩ := observed_same (draftFor q reply).chainAction o
        exact ⟨congrArg (·.getD "") hid, congrArg (·.getD "") hblock⟩
      no_outcome := by
        intro hno
        cases hw : a.outcomeWithin w with
        | error f => exact ⟨rfl, rfl⟩
        | ok o =>
          obtain ⟨hintime, hyields⟩ := outcomeWithin_eq_ok.mp hw
          exact absurd ⟨_, _, w, o, hexecuted, hintime, hyields⟩ hno
      times := rfl }

end Reports

/-! ### One run -/

section Storing

variable {σ α β : Type} {a : Agent (StateM σ)} {store : σ → Ledger.Store}

/-- An agent stores its tasks in a ledger on some machine, and its other collaborators leave that
ledger as it is. -/
structure StoresIn (a : Agent (StateM σ)) (store : σ → Ledger.Store) : Prop where
  keeps : a.Keeps store
  prepare : ∀ s, store (a.ledger.prepare s).2 = store s
  record : ∀ d s, ∃ (ω : Type) (h : Host (StateM ω)) (w w' : ω),
    (store s).create h d w = (((a.ledger.record d s).1, store (a.ledger.record d s).2), w')

/-- What a story stores: nothing, or the draft of its write. -/
def Story.Stores (store : σ → Ledger.Store) (story : Story σ α) : Prop :=
  ∀ ⦃s calls r left⦄, story s calls r left →
    (store left = store s ∧ ∀ d t, .record d (.ok t) ∉ calls) ∨
      ∃ d t, .record d (.ok t) ∈ calls ∧ (store s).Grown d t (store left)

theorem StoresIn.writing_stores (h : a.StoresIn store) (d : Task.Draft) :
    Story.Stores store (Story.Writing a d) := by
  intro s calls r left hstory
  cases hstory with
  | stopped i => exact .inl ⟨rfl, fun _ _ => List.not_mem_nil⟩
  | abandoned => exact .inl ⟨h.prepare s, fun _ _ => by simp⟩
  | refused _ => exact .inl ⟨h.prepare s, fun _ _ => by simp⟩
  | recorded _ =>
    obtain ⟨ω, host, w, w', hcreate⟩ := h.record d (a.ledger.prepare s).2
    rw [h.prepare] at hcreate
    obtain ⟨f, w', hfailed⟩ | ⟨t, grown, w', hstored, hgrown⟩ :=
      (store s).create_cases host d w
    · obtain ⟨hanswer, hsame⟩ := Prod.mk.inj (Prod.mk.inj (hcreate.symm.trans hfailed)).1
      refine .inl ⟨hsame, fun _ _ => ?_⟩
      rw [hanswer]
      simp
    · obtain ⟨hanswer, rfl⟩ := Prod.mk.inj (Prod.mk.inj (hcreate.symm.trans hstored)).1
      refine .inr ⟨d, t, ?_, hgrown⟩
      rw [hanswer]
      exact List.mem_cons_of_mem _ List.mem_cons_self

/-- A story without a planned write stores nothing, so what comes after it decides. -/
theorem Story.Stores.andThen {plan : List Call.Kind} {first : Story σ α} {next : α → Story σ β}
    (hfirst : first.Spares store) (horder : first.InOrder plan)
    (hplan : ∀ kind ∈ plan, kind ≠ .prepare ∧ kind ≠ .record) (hnext : ∀ a, (next a).Stores store) :
    Story.Stores store (first.AndThen next) := by
  have hspared {s left : σ} {calls : List Call} {r : Option (Except Failure α)}
      (h : first s calls r left) : store left = store s ∧ ∀ d t, .record d (.ok t) ∉ calls :=
    ⟨hfirst h fun c hc => (hplan _ (horder.kind_mem h hc)).1,
      fun d t hc => (hplan _ (horder.kind_mem h hc)).2 rfl⟩
  intro s calls r left h
  cases h with
  | abandoned h => exact .inl (hspared h)
  | failed h => exact .inl (hspared h)
  | went h hrest =>
    obtain ⟨hsame, hnone⟩ := hspared h
    rw [← hsame]
    obtain ⟨hkept, hunwritten⟩ | ⟨d, t, hc, hgrown⟩ := hnext _ hrest
    · refine .inl ⟨hkept, fun d t hc => ?_⟩
      exact (List.mem_append.mp hc).elim (hnone d t) (hunwritten d t)
    · exact .inr ⟨d, t, List.mem_append_right _ hc, hgrown⟩

theorem StoresIn.attemptStory_stores (h : a.StoresIn store) (goal action address : String) :
    (a.attemptStory goal action address).Stores store := by
  have hhistory : ∀ kind ∈ a.historyPlan, kind ≠ .prepare ∧ kind ≠ .record := by
    intro kind hkind
    rw [eq_of_mem_historyPlan hkind]
    decide
  have hknowledge : ∀ kind ∈ a.knowledgePlan, kind ≠ .prepare ∧ kind ≠ .record := by
    intro kind hkind
    rw [eq_of_mem_knowledgePlan hkind]
    decide
  have hchain (action : String) : ∀ kind ∈ chainPlan action, kind ≠ .prepare ∧ kind ≠ .record := by
    intro kind hkind
    rw [eq_of_mem_chainPlan hkind]
    decide
  refine .andThen h.keeps.historyStory_spares a.historyStory_inOrder hhistory fun history => ?_
  refine .andThen (h.keeps.knowledgeStory_spares _ _) (a.knowledgeStory_inOrder _ _) hknowledge
    fun cards => ?_
  refine .andThen (h.keeps.reasoningStory_spares _) (a.reasoningStory_inOrder _) (by simp)
    fun reply => ?_
  exact .andThen (h.keeps.chainStory_spares _) (a.chainStory_inOrder _) (hchain _) h.writing_stores

/-- **A run stores the task that it returns, or nothing.** -/
theorem StoresIn.run_stores (h : a.StoresIn store) (ctx : Context) (goal action address : String)
    (s : σ) :
    let run := (a.run ctx goal action address).run s
    (store run.2 = store s ∧ ∀ t e, run.1 ≠ some (.ok t, e)) ∨
      ∃ d t e, run.1 = some (.ok t, e) ∧ (store s).Grown d t (store run.2) ∧
        Reports a goal action address (a.calls ctx goal action address s) t := by
  intro run
  cases hgoal : Text.saysNothing goal with
  | true =>
    have hrun : run = _ := a.run_of_blank action address s hgoal ctx
    rw [hrun]
    exact .inl ⟨rfl, fun t e hend => by cases hend⟩
  | false =>
    obtain ⟨-, hstory⟩ := a.run_story hgoal ctx action address s
    obtain ⟨hsame, hnone⟩ | ⟨d, t, hc, hgrown⟩ := h.attemptStory_stores _ _ _ hstory
    · refine .inl ⟨hsame, fun t e hend => ?_⟩
      obtain ⟨d, hc⟩ := (a.run_ok_iff ctx goal action address s t).mp ⟨e, hend⟩
      exact hnone d t hc
    · obtain ⟨e, hend⟩ := (a.run_ok_iff ctx goal action address s t).mpr ⟨d, hc⟩
      refine .inr ⟨d, t, e, hend, hgrown, ?_⟩
      obtain ⟨id, createdAt, rfl⟩ := hgrown.stored
      exact attemptStory_reports hgoal hstory hc id createdAt

end Storing

/-! ### Turns -/

/-- One of several runs: an agent, which may be another one each time, its context and its
inputs. -/
structure Turn (σ : Type) where
  agent : Agent (StateM σ)
  ctx : Context
  goal : String
  action : String
  address : String

namespace Turn

variable {σ : Type}

def run (turn : Turn σ) : σ → Option (Except Failure Task × Span) × σ :=
  (turn.agent.run turn.ctx turn.goal turn.action turn.address).run

/-- The calls of a turn. -/
def calls (turn : Turn σ) (s : σ) : List Call :=
  turn.agent.calls turn.ctx turn.goal turn.action turn.address s

/-- The task that a turn returns, if it does. -/
def given (turn : Turn σ) (s : σ) : Option Task :=
  match (turn.run s).1 with
  | some (.ok t, _) => some t
  | _ => none

theorem given_eq_some {turn : Turn σ} {s : σ} {t : Task} :
    turn.given s = some t ↔ ∃ e, (turn.run s).1 = some (.ok t, e) := by
  unfold given
  rcases (turn.run s).1 with _ | ⟨f | u, e⟩ <;> simp

end Turn

section Turns

variable {σ : Type} {store : σ → Ledger.Store}

/-- The state after turns, one after the other. -/
def after (s : σ) : List (Turn σ) → σ
  | [] => s
  | turn :: rest => after (turn.run s).2 rest

/-- The tasks that turns return. -/
def givenBy (s : σ) : List (Turn σ) → List Task
  | [] => []
  | turn :: rest => (turn.given s).toList ++ givenBy (turn.run s).2 rest

/-- A task that turns return is returned by one of them, in the state after those before it. -/
theorem mem_givenBy {turns : List (Turn σ)} {s : σ} {t : Task} :
    t ∈ givenBy s turns ↔
      ∃ front turn back, turns = front ++ turn :: back ∧ turn.given (after s front) = some t := by
  induction turns generalizing s with
  | nil =>
    constructor
    · exact fun h => absurd h List.not_mem_nil
    · rintro ⟨front, turn, back, h, -⟩
      cases front <;> cases h
  | cons first rest ih =>
    rw [givenBy, List.mem_append, Option.mem_toList, ih]
    constructor
    · rintro (hfirst | ⟨front, turn, back, rfl, hgiven⟩)
      · exact ⟨[], first, rest, rfl, hfirst⟩
      · exact ⟨first :: front, turn, back, rfl, hgiven⟩
    · rintro ⟨_ | ⟨first', front⟩, turn, back, hsplit, hgiven⟩
      · obtain ⟨rfl, -⟩ := List.cons.inj hsplit
        exact .inl hgiven
      · obtain ⟨rfl, rfl⟩ := List.cons.inj hsplit
        exact .inr ⟨front, turn, back, rfl, hgiven⟩

/-- A turn appends the task that it returns to the ledger. -/
theorem Turn.grows {turn : Turn σ} (h : turn.agent.StoresIn store) (s : σ) :
    (store (turn.run s).2).tasks = (store s).tasks ++ (turn.given s).toList ∧
      ((store s).CountsUp → (store (turn.run s).2).CountsUp) ∧
      ∀ t, turn.given s = some t →
        Reports turn.agent turn.goal turn.action turn.address (turn.calls s) t := by
  obtain ⟨hsame, hnone⟩ | ⟨d, t, e, hend, hgrown, hreports⟩ :=
    h.run_stores turn.ctx turn.goal turn.action turn.address s
  · have hgiven : turn.given s = none := by
      rw [Option.eq_none_iff_forall_ne_some]
      intro t hgiven
      obtain ⟨e, hend⟩ := given_eq_some.mp hgiven
      exact hnone t e hend
    have hsame : store (turn.run s).2 = store s := hsame
    rw [hgiven, hsame, Option.toList_none, List.append_nil]
    exact ⟨rfl, id, fun t h => by cases h⟩
  · have hgiven : turn.given s = some t := given_eq_some.mpr ⟨e, hend⟩
    rw [hgiven]
    refine ⟨hgrown.tasks, hgrown.counts, fun u hu => ?_⟩
    obtain rfl := Option.some.inj hu
    exact hreports

/-- Turns append the tasks that they return, and ids keep ascending. -/
theorem after_grows {turns : List (Turn σ)} (h : ∀ turn ∈ turns, turn.agent.StoresIn store)
    (s : σ) :
    (store (after s turns)).tasks = (store s).tasks ++ givenBy s turns ∧
      ((store s).CountsUp → (store (after s turns)).CountsUp) := by
  induction turns generalizing s with
  | nil => exact ⟨(List.append_nil _).symm, id⟩
  | cons first rest ih =>
    obtain ⟨hfirst, hcounts, -⟩ := first.grows (h first List.mem_cons_self) s
    have hlater : ∀ turn ∈ rest, turn.agent.StoresIn store := fun turn hturn =>
      h turn (List.mem_cons_of_mem _ hturn)
    obtain ⟨hrest, hgo⟩ := ih hlater (first.run s).2
    refine ⟨?_, hgo ∘ hcounts⟩
    rw [after, givenBy, hrest, hfirst, List.append_assoc]

/-- **The tasks of a ledger that was empty at first report the runs that stored them.** Whatever
agents take turns at it, and whatever their collaborators do, its tasks are those that the turns
returned, in their order. Each reports its run, and is found under its id as long as a ledger in
memory has fewer tasks than there are ids. -/
theorem tasks_of_turns {s : σ} (hnew : (store s).IsNew) {turns : List (Turn σ)}
    (hturns : ∀ turn ∈ turns, turn.agent.StoresIn store) :
    (store (after s turns)).tasks = givenBy s turns ∧
      (∀ front turn back t e, turns = front ++ turn :: back →
        (turn.run (after s front)).1 = some (.ok t, e) → t ∈ (store (after s turns)).tasks) ∧
      ∀ t ∈ (store (after s turns)).tasks,
        (∃ front turn back e, turns = front ++ turn :: back ∧
          (turn.run (after s front)).1 = some (.ok t, e) ∧
          Reports turn.agent turn.goal turn.action turn.address (turn.calls (after s front)) t) ∧
        ((∀ j, store (after s turns) = .journal j → j.count < 2 ^ 63) →
          (store (after s turns)).get t.id = .ok t) := by
  obtain ⟨htasks, hcounts⟩ := after_grows hturns s
  rw [hnew.tasks, List.nil_append] at htasks
  refine ⟨htasks, ?_, fun t ht => ⟨?_, fun hfew => (hcounts hnew.countsUp).get hfew ht⟩⟩
  · rintro front turn back t e rfl hend
    rw [htasks]
    exact mem_givenBy.mpr ⟨front, turn, back, rfl, Turn.given_eq_some.mpr ⟨e, hend⟩⟩
  · rw [htasks] at ht
    obtain ⟨front, turn, back, rfl, hgiven⟩ := mem_givenBy.mp ht
    obtain ⟨e, hend⟩ := Turn.given_eq_some.mp hgiven
    have hstores := hturns turn (List.mem_append_right _ List.mem_cons_self)
    obtain ⟨-, -, hreports⟩ := turn.grows hstores (after s front)
    exact ⟨front, turn, back, e, rfl, hend, hreports t hgiven⟩

end Turns

/-! ### Turns in rehearsal -/

namespace Rehearsal

/-- A scripted agent stores its tasks in its ledger. -/
theorem agent_storesIn (c : Cast)
    (hknowledge : ∀ goal action stage,
      (c.knowledge.lookup goal action stage).2.store = stage.store) :
    (agent c).StoresIn Stage.store where
  keeps := agent_keeps_store c hknowledge
  prepare := Switch.passing_store c.writing fun _ => rfl
  record := fun _ stage => ⟨World, World.host, stage.world, _, rfl⟩

/-- An agent without knowledge and memory, with a chain action that takes three nanoseconds. -/
def terse (speaker : Speaker) (result : Except Chain.Failure Chain.Outcome) : Cast where
  storeName := "sqlite"
  speaker := speaker
  actor := some ⟨some ⟨3⟩, result⟩
  reading := .clear
  writing := .clear
  extraRows := 0
  knowledge := .absent
  options := ⟨0, none, ⟨9⟩⟩

/-- A stage with an empty ledger. -/
def fresh : Stage := ⟨.bare, .database ⟨none, Ledger.Table.blank.migrated 0⟩, [], [], ⟨0⟩, 0⟩

/-- A backend that fails, an action with an empty observation, and an action that fails. -/
def threeTurns : List (Turn Stage) :=
  [⟨agent (terse ⟨.failing .emptyReply, some ⟨1⟩, ⟨8⟩⟩ (.error .notConfigured)), {}, "go", "", ""⟩,
    ⟨agent (terse ⟨.echo, some ⟨1⟩, ⟨8⟩⟩ (.ok ⟨" ", some "7", none⟩)), {}, " go ", "balance", "0x"⟩,
    ⟨agent (terse ⟨.echo, some ⟨1⟩, ⟨8⟩⟩ (.error .notConfigured)), {}, "stay", " deploy ", ""⟩]

theorem threeTurns_store : ∀ turn ∈ threeTurns, turn.agent.StoresIn Stage.store := by
  intro turn hturn
  simp only [threeTurns, List.mem_cons, List.not_mem_nil, or_false] at hturn
  rcases hturn with rfl | rfl | rfl <;> exact agent_storesIn _ fun _ _ _ => rfl

/-- Two of the turns return a task: the second one's has the outcome of its action, the third one's
has none of it. -/
theorem tasks_of_three_turns :
    ∃ t u : Task, (after fresh threeTurns).store.tasks = [t, u] ∧
      (t.observations = "chain action `balance` completed" ∧ t.chainId = "7" ∧
        t.blockNumber = "") ∧
      (u.observations = "chain action `deploy` failed: no chain network configured" ∧
        u.chainId = "" ∧ u.blockNumber = "") ∧
      (after fresh threeTurns).store.get 1 = .ok t ∧
      (after fresh threeTurns).store.get 2 = .ok u := by
  have hnew : (Stage.store fresh).IsNew := .database none 0
  obtain ⟨htasks, -, hfound⟩ := tasks_of_turns hnew threeTurns_store
  obtain ⟨t, u, hgiven, ht, hu, htold, hutold⟩ : ∃ t u : Task, givenBy fresh threeTurns = [t, u] ∧
      t.id = 1 ∧ u.id = 2 ∧
      (t.observations = "chain action `balance` completed" ∧ t.chainId = "7" ∧
        t.blockNumber = "") ∧
      (u.observations = "chain action `deploy` failed: no chain network configured" ∧
        u.chainId = "" ∧ u.blockNumber = "") :=
    ⟨_, _, rfl, rfl, rfl, ⟨rfl, rfl, rfl⟩, rfl, rfl, rfl⟩
  have hstored : (after fresh threeTurns).store.tasks = [t, u] := htasks.trans hgiven
  have hget (v : Task) (hv : v ∈ [t, u]) : (after fresh threeTurns).store.get v.id = .ok v :=
    (hfound v (hstored.symm ▸ hv)).2 nofun
  refine ⟨t, u, hstored, htold, hutold, ?_, ?_⟩
  · exact ht ▸ hget t (by simp)
  · exact hu ▸ hget u (by simp)

end Rehearsal

end Agent

end ChainAgent
