import ChainAgent.Chain.Executor
import ChainAgent.Settings.Basic

/-! The configured networks by name. -/
namespace ChainAgent.Chain

/-- Networks in the order of their names, and the default one. -/
structure Registry where
  networks : List Network
  defaultName : Option String

namespace Registry

/-- Inserts a network at its place; it replaces one of the same name. -/
def insert (n : Network) : List Network → List Network
  | [] => [n]
  | o :: rest =>
    if n.name < o.name then n :: o :: rest
    else if n.name == o.name then n :: rest
    else o :: insert n rest

/-- The only supported kind of network is EVM. -/
def isKnownKind (kind : String) : Bool := Action.sameIgnoringCase kind "evm"

/-- The networks of a configuration; those of unsupported kinds are skipped. -/
def ofSettings (c : Settings.Chain) : Registry where
  networks := (c.networks.filter (isKnownKind ·.kind)).foldl
    (fun ns n => insert ⟨Text.trim n.name, Text.trim n.rpcUrl⟩ ns) []
  defaultName := c.defaultNetworkName

/-- The network with a name. -/
def get? (r : Registry) (name : String) : Option Network :=
  r.networks.find? (·.name == Text.trim name)

/-- The executor of the default network. -/
def defaultExecutor (r : Registry) : Executor :=
  match r.defaultName >>= r.get? with
  | some n => .evm n
  | none => .disabled

/-- The executor of a name, or the default one without a name. -/
def resolve? (r : Registry) : Option String → Option Executor
  | some name => (r.get? name).map .evm
  | none => some r.defaultExecutor

def names (r : Registry) : List String := r.networks.map (·.name)

end Registry

end ChainAgent.Chain
