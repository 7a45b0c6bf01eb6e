import ChainAgent.Agent.Wiring
import ChainAgent.Settings.Loading

/-! Errors of commands: a message and its causes. -/
namespace ChainAgent.Command

structure Trouble where
  message : String
  /-- The causes, the nearest first. -/
  causes : List String

namespace Trouble

def plain (message : String) : Trouble := ⟨message, []⟩

/-- An error wrapped with a message. -/
def within (message : String) (t : Trouble) : Trouble := ⟨message, t.message :: t.causes⟩

/-- The message and the causes. -/
def lines (t : Trouble) : List String := t.message :: t.causes

def ofLedger (f : Ledger.Failure) : Trouble :=
  match f with
  | .io fault => ⟨f.message, [fault.message]⟩
  | _ => plain f.message

def ofAgent (f : Agent.Failure) : Trouble :=
  match f with
  | .storage s => (ofLedger s).within f.message
  | .knowledge k => (plain k.message).within f.message
  | .reasoning r => (plain r.message).within f.message
  | .chain c => (plain c.message).within f.message
  | .settings s => (plain s.message).within f.message
  | _ => plain f.message

def ofWiredLedger (f : Ledger.WiringFailure) : Trouble :=
  match f.cause with
  | some cause => (ofLedger cause).within f.message
  | none => plain f.message

def ofWiring (f : Agent.WiringFailure) : Trouble :=
  match f with
  | .ledger l => ofWiredLedger l
  | _ => plain f.message

end Trouble

end ChainAgent.Command
