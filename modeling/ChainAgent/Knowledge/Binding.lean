import ChainAgent.Knowledge.Catalogue
import ChainAgent.Settings.Basic
import ChainAgent.Text.Quoted
import ChainAgent.Time.Work

/-! Knowledge sources and their binding to the agent.

A source may answer more cards than its limit and blank ones among them; a binding passes on
neither. -/
namespace ChainAgent.Knowledge

/-- A knowledge source. -/
structure Source (m : Type → Type) where
  name : String
  /-- The most cards of one lookup. -/
  maxResults : Nat
  lookup : String → String → m (Time.Work (Except Failure (List Card)))

inductive Binding (m : Type → Type) where
  | absent
  | present (source : Source m)

variable {m : Type → Type} [Monad m]

/-- A catalogue as a source. -/
def Catalogue.source (c : Catalogue) : Source m where
  name := "static"
  maxResults := c.maxResults
  lookup := fun goal action => return .done (.ok (c.lookup goal action))

namespace Binding

omit [Monad m] in
/-- Whether a source is bound. -/
def isActive : Binding m → Bool
  | .absent => false
  | .present s => 0 < s.maxResults

def name : Binding m → String
  | .absent => "none"
  | .present s => s.name

/-- The debug output of a binding. -/
def debugText : Binding m → String
  | .absent => "KnowledgeBinding::Absent"
  | .present s => "KnowledgeBinding::Present(" ++ Text.quoted s.name ++ ")"

/-- The cards that are passed on: no blank ones, and no more than the limit. -/
def usable (limit : Nat) (cards : List Card) : List Card :=
  (cards.filter fun c => !Text.saysNothing c.content).take limit

/-- Looks up a goal and a chain action. -/
def lookup (goal action : String) : Binding m → m (Time.Work (Except Failure (List Card)))
  | .absent => return .done (.ok [])
  | .present s =>
    if s.maxResults == 0 then return .done (.ok [])
    else do
      let w ← s.lookup goal action
      return w.map fun r => r.map (usable s.maxResults)

end Binding

/-- The binding of a configuration. -/
def create (h : Host m) (s : Settings) : m (Except Failure (Binding m)) := do
  if !s.knowledge.isEnabled then return .ok .absent
  let path := s.resolve (← h.home) s.knowledge.source
  return (← Catalogue.load h path s.knowledge.maxResults).map fun c => .present c.source

end ChainAgent.Knowledge
