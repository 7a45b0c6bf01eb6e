import ChainAgent.Command.Arguments
import ChainAgent.Command.Trouble
import ChainAgent.Gateway.Listening
import ChainAgent.Gateway.Service
import ChainAgent.Text.Preview

/-! Execution of commands.

A command prints its result at its end, all of it or nothing. A gateway that starts to serve does
not end. A deadline beyond the range of the clock panics, which aborts the program. -/
namespace ChainAgent.Command

open Json (Value)

/-- The outcome of a command. -/
inductive Outcome (m : Type → Type) where
  | printed (text : String)
  | failed (t : Trouble)
  | serving (s : Settings) (host : String) (port : Nat) (w : Agent.Wiring m)
  | aborted

variable {m : Type → Type} [Monad m]

/-- A JSON value, pretty-printed. -/
def shown (v : Value) : Outcome m := .printed (Json.pretty v ++ "\n")

/-! ### Tasks -/

def runGoal (h : Host m) (s : Settings) (goal action address : String) : m (Outcome m) := do
  match ← Agent.wire h s with
  | .error f => return .failed (.ofWiring f)
  | .ok w =>
    if (Gateway.deadlineOf (← h.uptime) s.agent.requestTimeout).isNone then return .aborted
    let ctx : Agent.Context := {deadline := some s.agent.requestTimeout}
    let (result, _) ← (w.agent.run ctx goal action address).run w.session
    match result with
    | some (.ok t, _) => return shown t.toJson
    | some (.error f, _) => return .failed (.ofAgent f)
    | none => return .printed ""

/-- A command on the ledger. -/
def onLedger (h : Host m) (s : Settings) (command : Ledger.Store → Outcome m) : m (Outcome m) := do
  match ← Ledger.create h s with
  | .error f => return .failed (.ofWiredLedger f)
  | .ok store => return command store

def showTask (id : Int64) (store : Ledger.Store) : Outcome m :=
  match store.get id with
  | .ok t => shown t.toJson
  | .error f => .failed ((Trouble.ofLedger f).within ("Failed to load task " ++ toString id.toInt))

/-- The line of a task in `history`. -/
def historyLine (t : Task) : String :=
  "#" ++ toString t.id.toInt ++ " " ++ Text.preview t.goal 60 ++
    (if t.chainRequested then " [" ++ t.chainAction ++ "]" else "") ++
    " -> " ++ Text.preview t.reply 80

def historyText (ts : List Task) : String :=
  if ts.isEmpty then "No tasks recorded yet.\n" else String.join (ts.map fun t => historyLine t ++ "\n")

/-! ### Networks -/

/-- The names of all networks, with the default one marked. -/
def networksText (c : Settings.Chain) (r : Chain.Registry) : String :=
  let line (name : String) : String :=
    name ++ (if some name == c.defaultNetworkName then " (default)" else "") ++ "\n"
  (if r.networks.isEmpty then "No chain networks configured.\n" else "") ++
    String.join (r.names.map line)

def textOrNull : Option String → Value
  | some s => .text s
  | none => .null

def snapshotJson (s : Chain.Snapshot) : Value :=
  .object [("network", .text s.network), ("chain_id", .ofNat s.chainId),
    ("block_number", .ofNat s.blockNumber)]

def receiptJson (r : Chain.Receipt) : Value :=
  .object [("tx_hash", .text r.transaction), ("contract_address", textOrNull r.contract)]

def logJson (l : Chain.Log) : Value :=
  .object [("address", .text l.address), ("topics", .array (l.topics.map .text)),
    ("data", .text l.data),
    ("block_number", match l.blockNumber with
      | some n => .ofNat n
      | none => .null),
    ("transaction_hash", textOrNull l.transaction)]

/-- The answer of a network; `chain networks` asks none. -/
def ask (h : Host m) (e : Chain.Executor) : OnChain → Option (Chain.Call m Value)
  | .networks => none
  | .snapshot => some (snapshotJson <$> e.snapshot h.toTransport)
  | .logs address topics fromBlock toBlock =>
    some ((fun ls => .array (ls.map logJson)) <$>
      e.logs h.toTransport ⟨address, topics, fromBlock, toBlock⟩)
  | .deploy raw => some (receiptJson <$> e.deploy h.toTransport raw)
  | .send raws => some ((fun hashes => .array (hashes.map .text)) <$> e.sendBatch h.toTransport raws)

def onNetwork (h : Host m) (s : Settings) (name : Option String) (c : OnChain) :
    m (Outcome m) := do
  let registry := Chain.Registry.ofSettings s.chain
  match registry.resolve? name, c with
  | _, .networks => return .printed (networksText s.chain registry)
  | none, _ => return .failed (.plain ("Unknown chain network: " ++ name.getD ""))
  | some e, c =>
    match ask h e c with
    | none => return .printed ""
    | some call =>
      let (result, _) ← call.run 1
      match result with
      | .ok v => return shown v
      | .error f => return .failed (.plain f.message)

/-! ### The gateway -/

def openGateway (h : Host m) (s : Settings) (host : String) (port : Nat) : m (Outcome m) := do
  if !Gateway.isAddress host then return .failed (.plain "invalid socket address syntax")
  match ← h.listen host port with
  | .error f => return .failed (.plain f.message)
  | .ok _ =>
    if !Gateway.mayOpen s.gateway then return .failed (.plain Gateway.locked)
    match ← Agent.wire h s with
    | .error f => return .failed (.ofWiring f)
    | .ok w =>
      if !Gateway.isPatient s.agent.requestTimeout then return .aborted
      return .serving s host port w

/-! ### The program -/

/-- Performs a command with a configuration. -/
def perform (h : Host m) (s : Settings) : Command → m (Outcome m)
  | .serve host port => openGateway h s (host.getD s.gateway.host) (port.getD s.gateway.port)
  | .run goal action address => runGoal h s goal (action.getD "") (address.getD "")
  | .task id => onLedger h s (showTask id)
  | .history limit => onLedger h s fun store => .printed (historyText (store.recent limit))
  | .chain network c => onNetwork h s network c

/-- The configuration of an invocation. -/
def load (h : Host m) (i : Invocation) : m (Except Settings.LoadFailure Settings) :=
  match i.config with
  | some path => Settings.loadFrom h path
  | none => Settings.loadOrInit h

/-- The output of `--version`. -/
def versionText : String := "chainpilot 0.1.0\n"

/-- Executes a command line: an exit status for help and usage errors, otherwise the outcome. -/
def execute (h : Host m) (words : List String) : m (Outcome m ⊕ Stop) := do
  match parse words with
  | .error .version => return .inl (.printed versionText)
  | .error stop => return .inr stop
  | .ok i =>
    match ← load h i with
    | .error f => return .inl (.failed (.plain f.message))
    | .ok s => return .inl (← perform h s i.command)

end ChainAgent.Command
