import ChainAgent.Host.Basic
import ChainAgent.Files.Tree
import ChainAgent.Http.Redirect

/-! A model of a machine.

A `World` is the state of the machine that a program can observe, and the requests it has made. The
network peer answers the requests that reach it from a list of answers, one after the other; no one
listens at any other address. -/
namespace ChainAgent

/-- How the peer handles a request. -/
inductive World.PeerAnswer where
  | respond (r : Http.Response)
  /-- Closes the connection. -/
  | drop

/-- A program that can be run as an interpreter. -/
inductive World.Interpreter where
  /-- Prints the file it is given, as `cat` does. -/
  | printsFile
  /-- Exits in one way whatever it is given; it reads its input or ignores it. -/
  | ends (completion : Host.Completion) (readsInput : Bool)

structure World where
  files : Files.Tree
  /-- The current directory. -/
  directory : String
  environment : List (String × String)
  home : Option String
  clock : Int64
  /-- The monotonic clock. -/
  uptime : Time.Span
  /-- The scheme, host and port at which the peer listens. -/
  peer : Option (String × String)
  answers : List World.PeerAnswer
  /-- The requests that reached the peer, last first. -/
  requests : List Http.Request
  interpreters : List (String × World.Interpreter)
  /-- The input of the last child that read it. -/
  childInput : Option String

namespace World

/-- An empty machine. -/
def bare : World where
  files := .empty
  directory := "/"
  environment := []
  home := none
  clock := 0
  uptime := ⟨0⟩
  peer := none
  answers := []
  requests := []
  interpreters := []
  childInput := none

def place (w : World) (path : String) : List String := Files.Path.components w.directory path

/-- The peer's answer once its list is exhausted. -/
def exhausted : PeerAnswer := .respond {status := 500, body := .empty}

/-- Whether the peer listens at a URL. -/
def reaches (w : World) (url : Url) : Bool := w.peer == some (url.scheme, url.authority)

/-- Sends a request: the peer takes its next answer. -/
def send (r : Http.Request) : StateM World (Option Http.Response) := fun w =>
  if w.reaches r.url then
    let answer := w.answers.head?.getD exhausted
    let w := {w with answers := w.answers.drop 1, requests := r :: w.requests}
    match answer with
    | .respond response => (some response, w)
    | .drop => (none, w)
  else (none, w)

/-- Changes the files, or leaves them when that fails. -/
def changing (change : World → Except Files.Fault Files.Tree) :
    StateM World (Except Files.Fault Unit) := fun w =>
  match change w with
  | .ok files => (.ok (), {w with files := files})
  | .error f => (.error f, w)

/-- Runs a child process: its working directory and its interpreter must exist. -/
def runChild (c : Host.Child) : StateM World (Except Files.Fault Host.Completion) := fun w =>
  if c.directory.isEmpty || !w.files.isDirectory (w.place c.directory) then (.error .missing, w)
  else
    match w.interpreters.find? (·.1 == c.interpreter) with
    | none => (.error .missing, w)
    | some (_, .ends completion readsInput) =>
      (.ok completion, if readsInput then {w with childInput := some c.input} else w)
    | some (_, .printsFile) =>
      match w.files.read (Files.Path.components (Files.Path.join w.directory c.directory) c.argument) with
      | .ok bytes => (.ok ⟨.exited 0, bytes, .empty⟩, w)
      | .error f =>
        (.ok ⟨.exited 1, .empty,
          (c.interpreter ++ ": " ++ c.argument ++ ": " ++ f.reason ++ "\n").toUTF8⟩, w)

/-- The loopback and wildcard addresses, which every machine has. -/
def isOwnAddress (address : String) : Bool :=
  "127.".toList.isPrefixOf address.toList || ["0.0.0.0", "[::1]", "[::]"].contains address

/-- The error for binding an address that is not local. -/
def foreignAddress : Files.Fault := .other "Cannot assign requested address (os error 99)"

/-- The machine that a world models. -/
def host : Host (StateM World) where
  toTransport := .ofSending send
  readFile := fun p w => (w.files.read (w.place p), w)
  writeFile := fun p bytes => changing fun w => w.files.write (w.place p) bytes
  appendFile := fun p bytes => changing fun w => w.files.append (w.place p) bytes
  createDirs := fun p => changing fun w =>
    if p.isEmpty then .ok w.files else w.files.createDirs (w.place p)
  isPresent := fun p w => (!p.isEmpty && w.files.isPresent (w.place p), w)
  environment := fun name w => ((w.environment.find? (·.1 == name)).map (·.2), w)
  home := fun w => (w.home, w)
  now := fun w => (w.clock, w)
  uptime := fun w => (w.uptime, w)
  run := runChild
  listen := fun address _ w => (if isOwnAddress address then .ok () else .error foreignAddress, w)

end World

end ChainAgent
