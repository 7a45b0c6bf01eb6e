import ChainAgent.Files.Fault
import ChainAgent.Http.Message
import ChainAgent.Time.Span

/-! The interface of the program to its machine.

`Host` lists the operations: files, the environment, the clocks, a peer on the network and child
processes. The program is written against them in any monad, so that it runs on a machine as well as
in a model of one. -/
namespace ChainAgent

/-- How a child process exited. -/
inductive Host.Ending where
  | exited (code : Nat)
  | killed (signal : Nat)
deriving DecidableEq

/-- The output and exit of a child process. -/
structure Host.Completion where
  ending : Host.Ending
  output : ByteArray
  errors : ByteArray

/-- A child process to start: an interpreter with one argument, a working directory and all of its
input. -/
structure Host.Child where
  interpreter : String
  argument : String
  directory : String
  input : String

structure Host (m : Type → Type) extends Http.Transport m where
  readFile : String → m (Except Files.Fault ByteArray)
  writeFile : String → ByteArray → m (Except Files.Fault Unit)
  appendFile : String → ByteArray → m (Except Files.Fault Unit)
  /-- Creates a directory and its parents. -/
  createDirs : String → m (Except Files.Fault Unit)
  isPresent : String → m Bool
  /-- An environment variable. -/
  environment : String → m (Option String)
  /-- The home directory. -/
  home : m (Option String)
  /-- Seconds since the epoch. -/
  now : m Int64
  /-- The monotonic clock. -/
  uptime : m Time.Span
  /-- Runs a child process to its exit. -/
  run : Host.Child → m (Except Files.Fault Host.Completion)
  /-- Binds a port of a local address. -/
  listen : (host : String) → (port : Nat) → m (Except Files.Fault Unit)

namespace Host

/-- The names of the signals that kill a process. -/
def signalName : Nat → Option String
  | 1 => some "SIGHUP"
  | 2 => some "SIGINT"
  | 3 => some "SIGQUIT"
  | 4 => some "SIGILL"
  | 5 => some "SIGTRAP"
  | 6 => some "SIGABRT"
  | 7 => some "SIGBUS"
  | 8 => some "SIGFPE"
  | 9 => some "SIGKILL"
  | 10 => some "SIGUSR1"
  | 11 => some "SIGSEGV"
  | 12 => some "SIGUSR2"
  | 13 => some "SIGPIPE"
  | 14 => some "SIGALRM"
  | 15 => some "SIGTERM"
  | _ => none

def Ending.isSuccess : Ending → Bool
  | .exited code => code == 0
  | .killed _ => false

def Ending.text : Ending → String
  | .exited code => "exit status: " ++ toString code
  | .killed signal =>
    "signal: " ++ toString signal ++
      (match signalName signal with
        | some name => " (" ++ name ++ ")"
        | none => "")

variable {m : Type → Type} [Monad m]

/-- A file read as UTF-8. -/
def readText (h : Host m) (path : String) : m (Except Files.Fault String) := do
  match ← h.readFile path with
  | .error f => return .error f
  | .ok bytes =>
    match Text.decode bytes with
    | some s => return .ok s
    | none => return .error .notText

end Host

end ChainAgent
