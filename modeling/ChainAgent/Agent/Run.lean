import ChainAgent.Agent.Context
import ChainAgent.Chain.Executor
import ChainAgent.Knowledge.Binding
import ChainAgent.Ledger.Access
import ChainAgent.Reasoning.Request

/-! One run of the agent.

A run recalls past tasks, looks up knowledge, asks the backend, executes the chain action if one is
requested, and stores the task. A failing knowledge lookup or chain action only degrades the run;
failures of history, backend or ledger end it. Nothing is stored before everything else is done. -/
namespace ChainAgent

open Time (Span Work Course)

/-- The limits of a run. -/
structure Agent.Options where
  /-- How many past tasks are recalled. -/
  memoryDepth : Nat
  /-- The timeout of the backend, in place of its own. -/
  llmTimeout : Option Span
  chainTimeout : Span
deriving DecidableEq

def Agent.Options.ofSettings (s : Settings.Agent) : Agent.Options :=
  ⟨s.memoryDepth, s.llmTimeout, s.chainTimeout⟩

/-- An agent: its collaborators and its limits. -/
structure Agent (m : Type → Type) where
  ledger : Ledger.Access m
  knowledge : Knowledge.Binding m
  generate : Reasoning.Request → m (Work (Except Reasoning.Failure Reasoning.Reply))
  /-- The backend's own timeout. -/
  reasoningTimeout : Span
  /-- Executes a chain action for an address. -/
  execute : String → String → m (Work (Except Chain.Failure Chain.Outcome))
  options : Agent.Options

namespace Agent

/-- A computation of a run, which may fail. -/
abbrev Attempt (m : Type → Type) := ExceptT Failure (Course m)

variable {m : Type → Type} [Monad m]

/-- Fails at a step if the run is cancelled or past its deadline. -/
def checkpoint (ctx : Context) (step : Step) : Attempt m Unit := do
  let now ← (Course.now : Course m Span)
  match ctx.check now with
  | some i => throw (i.at step)
  | none => return

/-- Work at a step of a run, guarded by its context. -/
def during {α : Type} (ctx : Context) (step : Step) (work : m (Work α)) : Attempt m α := do
  match ← (ctx.guarding work : Course m (Except Interruption α)) with
  | .error i => throw (i.at step)
  | .ok a => return a

def recallHistory (a : Agent m) (ctx : Context) : Attempt m (List Reasoning.PastTask) := do
  checkpoint ctx .history
  let depth := a.options.memoryDepth
  if depth == 0 then return []
  match ← during ctx .history (a.ledger.recent depth) with
  | .error f => throw (.storage f)
  | .ok tasks => return (tasks.take depth).map .of

/-- The cards for a run; a failing lookup gives none. -/
def lookupKnowledge (a : Agent m) (ctx : Context) (goal action : String) :
    Attempt m (List Knowledge.Card) := do
  if !a.knowledge.isActive then return []
  match ← during ctx .knowledge (a.knowledge.lookup goal action) with
  | .error _ => return []
  | .ok cards => return cards

def reason (a : Agent m) (ctx : Context) (r : Reasoning.Request) : Attempt m Reasoning.Reply := do
  let budget := a.options.llmTimeout.getD a.reasoningTimeout
  let late : Except Reasoning.Failure Reasoning.Reply := .error (.timedOut budget)
  match ← during ctx .reasoning ((·.within budget late) <$> a.generate r) with
  | .error f => throw (.reasoning f)
  | .ok reply => if Text.saysNothing reply.reply then throw (.reasoning .emptyReply) else return reply

/-- The outcome to report of an action that succeeded: an empty observation is replaced. -/
def observed (action : String) (o : Chain.Outcome) : Chain.Outcome :=
  if Text.saysNothing o.observation then
    {o with observation := "chain action `" ++ action ++ "` completed"}
  else o

/-- The observation to store for an action that failed. -/
def failureText (action : String) (f : Chain.Failure) : String :=
  "chain action `" ++ action ++ "` failed: " ++ f.message

/-- Executes the action of a draft, if it has one, within the chain timeout and the deadline. -/
def executeChain (a : Agent m) (ctx : Context) (d : Task.Draft) : Attempt m Task.Draft := do
  if d.chainAction.isEmpty then return d
  let now ← (Course.now : Course m Span)
  let budget := match ctx.remaining now with
    | some left => if left.nanos ≤ a.options.chainTimeout.nanos then left else a.options.chainTimeout
    | none => a.options.chainTimeout
  let late : Except Chain.Failure Chain.Outcome := .error (.timedOut budget)
  match ← during ctx .chain ((·.within budget late) <$> a.execute d.chainAction d.address) with
  | .ok o => return d.withOutcome (observed d.chainAction o)
  | .error f => return d.withFailure (failureText d.chainAction f)

/-- Stores a draft. A write that has begun is not interrupted. -/
def persist (a : Agent m) (ctx : Context) (d : Task.Draft) : Attempt m Task := do
  checkpoint ctx .persist
  match ← (Course.await ctx.abandonAt a.ledger.prepare : Course m (Except Ledger.Failure Unit)) with
  | .error f => throw (.storage f)
  | .ok _ =>
    match ← (a.ledger.record d : OptionT m (Except Ledger.Failure Task)) with
    | .error f => throw (.storage f)
    | .ok task => return task

/-- The steps of a run, once its goal is known not to be blank. -/
def attempt (a : Agent m) (ctx : Context) (goal action address : String) : Attempt m Task := do
  let history ← a.recallHistory ctx
  let knowledge ← a.lookupKnowledge ctx goal action
  let reply ← a.reason ctx ⟨goal, action, address, history, knowledge⟩
  let draft : Task.Draft := {goal := goal, chainAction := action, address := address}
  let draft ← a.executeChain ctx (draft.withReasoning reply.thought reply.reply)
  a.persist ctx draft

/-- A run with its inputs trimmed; a blank goal is invalid. -/
def course (a : Agent m) (ctx : Context) (goal action address : String) :
    Course m (Except Failure Task) :=
  if Text.saysNothing goal then return .error (.invalidInput "goal must not be empty")
  else (a.attempt ctx (Text.trim goal) (Text.trim action) (Text.trim address)).run

/-- A run from the start of its context on: its result and the instant of its end; none if the
caller drops it before. -/
def run (a : Agent m) (ctx : Context) (goal action address : String) :
    m (Option (Except Failure Task × Span)) :=
  (a.course ctx goal action address).result ctx.start

end Agent

end ChainAgent
