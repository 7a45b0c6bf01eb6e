import ChainAgent.Ledger.Journal
import ChainAgent.Ledger.Table

/-! The interface of both kinds of ledger; the configuration chooses one. -/
namespace ChainAgent.Ledger

inductive Store where
  | journal (j : Journal)
  | database (d : Database)

namespace Store

/-- The name of the kind of ledger. -/
def name : Store → String
  | .journal _ => "memory"
  | .database _ => "sqlite"

/-- At most `limit` tasks, newest first. -/
def recent : Store → Nat → List Task
  | .journal j, limit => j.recent limit
  | .database d, limit => d.table.recent limit

def get : Store → Int64 → Except Failure Task
  | .journal j, id => j.get id
  | .database d, id => d.table.get id

def count : Store → Nat
  | .journal j => j.count
  | .database d => d.table.count

def stats : Store → Stats
  | .journal j => j.stats
  | .database d => d.table.stats

/-- Stores a draft: the ledger assigns its id and its creation time. -/
def create {m : Type → Type} [Monad m] (h : Host m) : Store → Task.Draft →
    m (Except Failure Task × Store)
  | .journal j, d => do
    let (result, j) ← j.create h d
    return (result, .journal j)
  | .database db, d => do
    let (result, db) ← db.create h d
    return (result, .database db)

end Store

end ChainAgent.Ledger
