import ChainAgent.Text.Blank
import ChainAgent.Chain.Failure

/-! The read-only actions of a chain executor. -/
namespace ChainAgent.Chain

/-- A read-only action. -/
inductive Action where
  | balance
  | nonce
  | code
  | blockNumber
  | chainId
deriving DecidableEq

namespace Action

/-- All actions, each with its canonical name and its aliases. -/
def names : List (Action × List String) := [
  (.balance, ["balance", "eth_getBalance"]),
  (.nonce, ["nonce", "transaction_count", "eth_getTransactionCount"]),
  (.code, ["code", "eth_getCode"]),
  (.blockNumber, ["block_number", "eth_blockNumber"]),
  (.chainId, ["chain_id", "eth_chainId"])]

/-- Whether two texts are equal up to the case of ASCII letters. -/
def sameIgnoringCase (a b : String) : Bool :=
  a.toList.map Char.toLower == b.toList.map Char.toLower

/-- The action with a name or alias. -/
def parse (raw : String) : Except Failure Action :=
  let name := Text.trim raw
  match names.find? fun (_, aliases) => aliases.any (sameIgnoringCase name) with
  | some (a, _) => .ok a
  | none => .error (.unsupportedAction name)

/-- The canonical name. -/
def name : Action → String
  | .balance => "balance"
  | .nonce => "nonce"
  | .code => "code"
  | .blockNumber => "block_number"
  | .chainId => "chain_id"

/-- The JSON-RPC method that the action calls. -/
def method : Action → String
  | .balance => "eth_getBalance"
  | .nonce => "eth_getTransactionCount"
  | .code => "eth_getCode"
  | .blockNumber => "eth_blockNumber"
  | .chainId => "eth_chainId"

/-- Whether the action needs an account address. -/
def needsAddress : Action → Bool
  | .balance | .nonce | .code => true
  | .blockNumber | .chainId => false

end Action

end ChainAgent.Chain
