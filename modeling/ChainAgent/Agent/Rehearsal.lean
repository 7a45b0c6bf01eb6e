import ChainAgent.Agent.Run
import ChainAgent.Host.World
import ChainAgent.Reasoning.Prompt
import ChainAgent.Reasoning.Reply

/-! Agents with scripted collaborators.

Backend, executor and ledger of such an agent are test doubles: each takes a given time and gives a
given answer. The ledger is a real one behind switches that delay or fail its operations. All
requests are recorded. -/
namespace ChainAgent.Agent.Rehearsal

open Time (Span Work)

/-- The state of a rehearsal: the requests so far, last first, and the ledger. -/
structure Stage where
  world : World
  store : Ledger.Store
  requests : List Reasoning.Request
  actions : List (String × String)
  /-- The monotonic clock. -/
  uptime : Span
  /-- How many random draws were made. -/
  draws : Nat

/-- What the scripted backend replies. -/
inductive Voice where
  /-- Replies with the goal. -/
  | echo
  | fixed (r : Reasoning.Reply)
  /-- Parses a raw payload, as a networked backend does. -/
  | raw (payload : String)
  /-- Replies with the prompt that a networked backend would be sent. -/
  | prompt
  | failing (f : Reasoning.Failure)

structure Speaker where
  voice : Voice
  takes : Option Span
  timeout : Span

/-- A scripted executor of chain actions. -/
structure Actor where
  takes : Option Span
  result : Except Chain.Failure Chain.Outcome

/-- A delay and a failure in front of a ledger operation. -/
structure Switch where
  takes : Option Span
  failure : Option Ledger.Failure

/-- No delay and no failure. -/
def Switch.clear : Switch := ⟨some ⟨0⟩, none⟩

/-- The scripted collaborators of an agent. -/
structure Cast where
  storeName : String
  speaker : Speaker
  /-- Without an actor no network is configured. -/
  actor : Option Actor
  reading : Switch
  writing : Switch
  /-- How many tasks more than the limit `recent` returns. -/
  extraRows : Nat
  knowledge : Knowledge.Binding (StateM Stage)
  options : Options

def Voice.answer (r : Reasoning.Request) : Voice → Except Reasoning.Failure Reasoning.Reply
  | .echo => .ok ⟨"considering " ++ r.goal, "answer to " ++ r.goal⟩
  | .fixed reply => .ok reply
  | .raw payload => Reasoning.parseReply payload
  | .prompt => Reasoning.parseReply (Reasoning.userPrompt r)
  | .failing f => .error f

def Speaker.generate (s : Speaker) (r : Reasoning.Request) :
    StateM Stage (Work (Except Reasoning.Failure Reasoning.Reply)) := do
  modify fun stage => {stage with requests := r :: stage.requests}
  return ⟨s.takes, s.voice.answer r⟩

def Actor.execute (a : Actor) (action address : String) :
    StateM Stage (Work (Except Chain.Failure Chain.Outcome)) := do
  modify fun stage => {stage with actions := (action, address) :: stage.actions}
  return ⟨a.takes, a.result⟩

/-- An operation behind a switch. -/
def Switch.passing {α : Type} (s : Switch) (answer : StateM Stage (Except Ledger.Failure α)) :
    StateM Stage (Work (Except Ledger.Failure α)) := do
  match s.failure with
  | some f => return ⟨s.takes, .error f⟩
  | none => return ⟨s.takes, ← answer⟩

/-- Stores a draft, past all switches. -/
def record (d : Task.Draft) : StateM Stage (Except Ledger.Failure Task) := do
  let stage ← get
  let ((result, store), world) := (stage.store.create World.host d).run stage.world
  set {stage with store := store, world := world}
  return result

def ledger (c : Cast) : Ledger.Access (StateM Stage) where
  name := c.storeName
  recent := fun limit => c.reading.passing do return .ok ((← get).store.recent (limit + c.extraRows))
  get := fun id => c.reading.passing do return (← get).store.get id
  stats := c.reading.passing do return .ok (← get).store.stats
  prepare := c.writing.passing (return .ok ())
  record := record

/-- The agent with these collaborators. -/
def agent (c : Cast) : Agent (StateM Stage) where
  ledger := ledger c
  knowledge := c.knowledge
  generate := c.speaker.generate
  reasoningTimeout := c.speaker.timeout
  execute := fun action address =>
    match c.actor with
    | some a => a.execute action address
    | none => return .done (.error .notConfigured)
  options := c.options

end ChainAgent.Agent.Rehearsal
