import ChainAgent.Host.Basic
import ChainAgent.Http.Redirect
import ChainAgent.Http.Wire
import Std.Async.DNS
import Std.Async.TCP
import Std.Async.Timer
import Std.Time.DateTime.Timestamp

/-! The machine that the program runs on.

Requests go over plain TCP, each on a connection of its own. TLS and child processes are not
available here: a request that needs TLS fails as an unanswered one does, and so does the start of a
child process. -/
namespace ChainAgent.Machine

open Std.Async
open Std.Net

/-- A system error as a fault. -/
def faultOf : IO.Error → Files.Fault
  | .noFileOrDirectory .. => .missing
  | .alreadyExists .. => .exists
  | .inappropriateType _ code _ => if code == 21 then .isDirectory else .notDirectory
  | e => .other (toString e)

/-- The result of an action, or its fault. -/
def attempt {α : Type} (action : IO α) : IO (Except Files.Fault α) := do
  try
    return .ok (← action)
  catch e =>
    return .error (faultOf e)

/-! ### The network -/

/-- The socket address of a host and a port. -/
def socketAddress (address : IPAddr) (port : Nat) : SocketAddress :=
  match address with
  | .v4 a => .v4 ⟨a, UInt16.ofNat port⟩
  | .v6 a => .v6 ⟨a, UInt16.ofNat port⟩

/-- The IP address that a host is, if it is one. -/
def literalAddress (host : String) : Option IPAddr :=
  let inside := ((host.toList.filter fun c => c != '[' && c != ']').takeWhile (· != '%'))
  match IPv4Addr.ofString host with
  | some a => some (.v4 a)
  | none => (IPv6Addr.ofString (String.ofList inside)).map .v6

/-- The first address of a host name. -/
def lookUp (host : String) : Async (Option IPAddr) := do
  match literalAddress host with
  | some a => return some a
  | none => return (← DNS.getAddrInfo host "")[0]?

/-- The most bytes of one read. -/
def portion : UInt64 := 65536

/-- The read timeout. -/
def silence : Std.Time.Millisecond.Offset := 120000

/-- The next bytes of a connection; none at its end or after the read timeout. -/
def receive (c : TCP.Socket.Client) : Async (Option ByteArray) := do
  Selectable.one #[
    .case (c.recvSelector portion) pure,
    .case (← Selector.sleep silence) fun _ => pure none]

/-- Reads until enough has arrived. -/
def receiveAll {α : Type} (c : TCP.Socket.Client)
    (progress : Bool → List UInt8 → Http.Wire.Progress α) : Async (Option α) := do
  let mut bytes : List UInt8 := []
  let mut isClosed := false
  repeat
    match progress isClosed bytes with
    | .done a => return some a
    | .malformed => return none
    | .unfinished =>
      if isClosed then return none
      match ← receive c with
      | some more => bytes := bytes ++ more.toList
      | none => isClosed := true
  return none

/-- Sends a request and waits for its response. -/
def send (r : Http.Request) : IO (Option Http.Response) := do
  if r.url.scheme != "http" then return none
  let talk : Async (Option Http.Response) := do
    match ← lookUp (String.ofList r.url.host) with
    | none => return none
    | some address =>
      let c ← TCP.Socket.Client.mk
      c.connect (socketAddress address (r.url.port.getD 80))
      c.send (Http.Wire.write (Http.Wire.ofRequest r))
      receiveAll c Http.Wire.readResponse
  try
    talk.block
  catch _ =>
    return none

/-! ### The rest -/

/-- The listening socket. -/
abbrev Listener := IO.Ref (Option TCP.Socket.Server)

def listen (listener : Listener) (host : String) (port : Nat) : IO (Except Files.Fault Unit) :=
  attempt do
    match literalAddress host with
    | none => throw (IO.userError "invalid socket address syntax")
    | some address =>
      let server ← TCP.Socket.Server.mk
      server.bind (socketAddress address port)
      server.listen 1024
      listener.set (some server)

def isPresent (path : String) : IO Bool := do
  try
    discard (IO.FS.realPath path)
    return true
  catch _ =>
    return false

def appendFile (path : String) (bytes : ByteArray) : IO Unit := do
  let file ← IO.FS.Handle.mk path .append
  file.write bytes
  file.flush

/-- The fault for starting a child process. -/
def childless : Files.Fault := .other "child processes are not supported"

def host (listener : Listener) : Host IO where
  toTransport := .ofSending send
  readFile := fun path => attempt (IO.FS.readBinFile path)
  writeFile := fun path bytes => attempt (IO.FS.writeBinFile path bytes)
  appendFile := fun path bytes => attempt (appendFile path bytes)
  createDirs := fun path =>
    if path.isEmpty then return .ok () else attempt (IO.FS.createDirAll path)
  isPresent := isPresent
  environment := fun name => IO.getEnv name
  home := do return (← IO.getEnv "HOME").filter (!·.isEmpty)
  now := do return .ofInt (← Std.Time.Timestamp.now).toSecondsSinceUnixEpoch.val
  uptime := do return ⟨← IO.monoNanosNow⟩
  run := fun _ => return .error childless
  listen := listen listener

end ChainAgent.Machine
