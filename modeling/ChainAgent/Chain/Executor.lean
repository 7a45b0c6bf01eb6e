import ChainAgent.Chain.Outcome
import ChainAgent.Chain.Call
import ChainAgent.Chain.Action
import ChainAgent.Chain.Hex

/-! The executor of a network.

It runs the read-only actions of the agent and the calls of the command line: a snapshot, the
broadcast of signed transactions, one by one or in a batch, and the logs that match a filter.
Without a configured network all of them fail in the same way. -/
namespace ChainAgent.Chain

open Json (Value)

/-- A JSON-RPC node. -/
structure Network where
  name : String
  address : String
deriving DecidableEq

inductive Executor where
  | disabled
  | evm (network : Network)
deriving DecidableEq

/-- The state of a network at one moment. -/
structure Snapshot where
  network : String
  chainId : Nat
  blockNumber : Nat

/-- The receipt of a deployment; the contract's address is known once the transaction is mined. -/
structure Receipt where
  transaction : String
  contract : Option String

structure LogFilter where
  address : Option String
  topics : List String
  fromBlock : Option Nat
  toBlock : Option Nat

structure Log where
  address : String
  topics : List String
  data : String
  blockNumber : Option Nat
  transaction : Option String

/-- The name of the network, with a placeholder if none is configured. -/
def Executor.network : Executor → String
  | .disabled => "none"
  | .evm n => n.name

variable {m : Type → Type} [Monad m]

namespace Network

variable (t : Http.Transport m) (n : Network)

/-- The quantity that a call answers. -/
def quantity (method : String) (params : List Value) : Call m Nat := do
  let raw ← call t n.address method params Json.string
  match Hex.quantity? raw with
  | some q => return q
  | none => throw (.undecodable method ("invalid quantity '" ++ raw ++ "'"))

/-- The observation of an action, from the answer to its first call. -/
def observe (action : Action) (address : String) : Call m String := do
  let method := action.method
  let ofAccount : List Value := [.text address, .text "latest"]
  match action with
  | .balance =>
    let raw ← call t n.address method ofAccount Json.string
    match Hex.wide? raw with
    | some wei => return "balance=" ++ Hex.etherText wei ++ " ETH"
    | none => throw (.undecodable method ("invalid balance '" ++ raw ++ "'"))
  | .nonce =>
    let q ← n.quantity t method ofAccount
    return "nonce=" ++ toString q
  | .code =>
    let raw ← call t n.address method ofAccount Json.string
    return "code_size=" ++ toString (Hex.byteCount raw) ++ " bytes"
  | .blockNumber =>
    let q ← n.quantity t method []
    return "block_number=" ++ toString q
  | .chainId =>
    let q ← n.quantity t method []
    return "chain_id=" ++ toString q

def snapshot : Call m Snapshot := do
  let chainId ← n.quantity t "eth_chainId" []
  let blockNumber ← n.quantity t "eth_blockNumber" []
  return ⟨n.name, chainId, blockNumber⟩

/-- The result of a call that may fail, none if it fails. -/
def attempt {α : Type} (c : Call m α) : Call m (Option α) :=
  tryCatch (some <$> c) fun _ => pure none

/-- Runs an action. Chain id and block number are those of a snapshot after it, both or neither. -/
def execute (action address : String) : Call m Outcome := do
  let a ← ExceptT.mk (pure (Action.parse action))
  let account ←
    if a.needsAddress then
      match Hex.address? address with
      | some account => pure account
      | none => throw (.invalidAddress address)
    else pure ""
  let observation ← n.observe t a account
  let snapshot ← attempt (n.snapshot t)
  return Outcome.mk observation (snapshot.map fun s => toString s.chainId)
    (snapshot.map fun s => toString s.blockNumber)

/-- The method that broadcasts a signed transaction. -/
def broadcast : String := "eth_sendRawTransaction"

/-- A signed transaction in its normal form. -/
def signed (raw : String) : Except Failure String :=
  match Hex.blob? raw with
  | some blob => .ok blob
  | none => .error (.rpc broadcast "signed transaction must be 0x-prefixed even-length hex")

def receiptShape : Json.Shape :=
  ⟨"RpcReceipt", [Json.defaulted "contractAddress" (Json.nullable Json.string)]⟩

/-- The contract address of a receipt. -/
def receiptContract : Json.Decoder (Option String) := fun node => do
  let found ← receiptShape.scan .value node
  return Json.fieldOr found "contractAddress" (Json.nullable Json.string) none

/-- Broadcasts a signed deployment. A receipt that is not available yet is no failure. -/
def deploy (raw : String) : Call m Receipt := do
  let blob ← ExceptT.mk (pure (signed raw))
  let transaction ← call t n.address broadcast [.text blob] Json.string
  let receipt ← attempt
    (call t n.address "eth_getTransactionReceipt" [.text transaction] (Json.nullable receiptContract))
  return ⟨transaction, receipt.join.join⟩

/-- Numbers the transactions of a batch; fails at the first that is no hex string. -/
def numbered : List String → Call m (List (UInt64 × String))
  | [] => return []
  | raw :: rest => do
    let blob ← ExceptT.mk (pure (signed raw))
    let id ← nextId
    return (id, blob) :: (← numbered rest)

/-- The answer with an id, of several the last. -/
def answerTo (answers : List PeerAnswer) (id : UInt64) : Option PeerAnswer :=
  answers.foldl (fun found a => if a.id == some id.toNat then some a else found) none

/-- The hash of one transaction of a batch. -/
def batchHash (answers : List PeerAnswer) (id : UInt64) : Except Failure String :=
  match answerTo answers id with
  | some a => a.decode broadcast Json.string
  | none => .error (.undecodable broadcast
      ("missing response for batch id " ++ toString id.toNat))

/-- Broadcasts signed transactions in one request; the hashes are in the order of the
transactions. -/
def sendBatch (raws : List String) : Call m (List String) := do
  if raws.isEmpty then return []
  let batch ← numbered raws
  let body := batch.map fun (id, blob) => callBody id broadcast [.text blob]
  let raw ← post t n.address broadcast (.array body)
  let answers ← ExceptT.mk (pure (decoded broadcast (Json.list peerAnswer) raw.node))
  ExceptT.mk (pure (batch.mapM fun (id, _) => batchHash answers id))

/-- A block number in a filter. -/
def blockTag : Option Nat → Value
  | some b => .text (Hex.ofNat b)
  | none => .text "latest"

def logShape : Json.Shape := ⟨"RpcLog", [
  Json.required "address" Json.string,
  Json.defaulted "topics" (Json.list Json.string),
  Json.defaulted "data" Json.string,
  Json.defaulted "blockNumber" (Json.nullable Json.string),
  Json.defaulted "transactionHash" (Json.nullable Json.string)]⟩

def log : Json.Decoder Log := fun node => do
  let found ← logShape.scan .value node
  return {
    address := Json.fieldOr found "address" Json.string ""
    topics := Json.fieldOr found "topics" (Json.list Json.string) []
    data := Json.fieldOr found "data" Json.string ""
    blockNumber := (Json.fieldOr found "blockNumber" (Json.nullable Json.string) none) >>= Hex.quantity?
    transaction := Json.fieldOr found "transactionHash" (Json.nullable Json.string) none }

/-- A filter as call parameters, with the address already checked. -/
def filterParams (f : LogFilter) (address : Option String) : Value :=
  .object (
    (match address with
      | some a => [("address", .text a)]
      | none => []) ++
    [("fromBlock", blockTag f.fromBlock), ("toBlock", blockTag f.toBlock)] ++
    (if f.topics.isEmpty then [] else [("topics", .array (f.topics.map .text))]))

/-- The logs that match a filter. -/
def logs (f : LogFilter) : Call m (List Log) := do
  let address ← match f.address with
    | none => pure none
    | some raw =>
      match Hex.address? raw with
      | some a => pure (some a)
      | none => throw (.invalidAddress raw)
  call t n.address "eth_getLogs" [filterParams f address] (Json.list log)

end Network

namespace Executor

variable (t : Http.Transport m)

/-- Work on the network, if one is configured. -/
def onNetwork {α : Type} (work : Network → Call m α) : Executor → Call m α
  | .disabled => throw .notConfigured
  | .evm n => work n

def execute (e : Executor) (action address : String) : Call m Outcome :=
  e.onNetwork fun n => n.execute t action address

def snapshot (e : Executor) : Call m Snapshot := e.onNetwork fun n => n.snapshot t

def deploy (e : Executor) (raw : String) : Call m Receipt := e.onNetwork fun n => n.deploy t raw

def sendBatch (e : Executor) (raws : List String) : Call m (List String) :=
  e.onNetwork fun n => n.sendBatch t raws

def logs (e : Executor) (f : LogFilter) : Call m (List Log) := e.onNetwork fun n => n.logs t f

end Executor

end ChainAgent.Chain
