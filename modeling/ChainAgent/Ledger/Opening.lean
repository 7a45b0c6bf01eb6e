import ChainAgent.Ledger.Store
import ChainAgent.Settings.Basic

/-! The configured ledger. -/
namespace ChainAgent.Ledger

/-- Why the ledger cannot be opened. -/
inductive WiringFailure where
  | journal (directory : String) (f : Failure)
  | database (path : String) (f : Failure)
  | unknownDriver (driver : String)

def WiringFailure.message : WiringFailure → String
  | .journal directory _ => "Failed to open task log in " ++ directory
  | .database path _ => "Failed to open task database " ++ path
  | .unknownDriver d => "Unknown storage driver '" ++ d ++ "'. Supported: memory, sqlite"

/-- The underlying failure. -/
def WiringFailure.cause : WiringFailure → Option Failure
  | .journal _ f => some f
  | .database _ f => some f
  | .unknownDriver _ => none

/-- The configured database file. -/
def databasePath (s : Settings) (home : Option String) : String :=
  match s.storage.sqlitePath with
  | some path => s.resolve home path
  | none => Files.Path.join (s.dataDir home) "tasks.db"

/-- Opens the configured ledger. -/
def create {m : Type → Type} [Monad m] (h : Host m) (s : Settings) :
    m (Except WiringFailure Store) := do
  let home ← h.home
  match s.storage.driver with
  | "memory" =>
    let directory := s.dataDir home
    match ← Journal.openAt h directory with
    | .ok j => return .ok (.journal j)
    | .error f => return .error (.journal directory f)
  | "sqlite" =>
    let path := databasePath s home
    match ← Database.openAt h path with
    | .ok d => return .ok (.database d)
    | .error f => return .error (.database path f)
  | other => return .error (.unknownDriver other)

end ChainAgent.Ledger
