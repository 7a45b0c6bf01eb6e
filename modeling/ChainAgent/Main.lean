import ChainAgent.Command.Dispatch
import ChainAgent.Machine.Server

/-! The program.

Results go to the standard output and errors to the standard error. The exit status is 0 after a
result, 1 after an error, 2 after a usage error, and that of an abort where the program panics. -/
namespace ChainAgent.Machine

open Command (Trouble)

/-- An error with its causes, as a user reads it. -/
def report (t : Trouble) : String :=
  let causes := match t.causes with
    | [] => ""
    | [cause] => "\n\nCaused by:\n    " ++ cause
    | causes => "\n\nCaused by:" ++
      String.join (causes.mapIdx fun i cause => "\n    " ++ toString i ++ ": " ++ cause)
  "Error: " ++ t.message ++ causes ++ "\n"

/-- The usage text. -/
def usage : String :=
  "Usage: chainpilot [--config <CONFIG>] <COMMAND>\n\n" ++
  "Commands:\n" ++
  "  serve    Start the HTTP gateway\n" ++
  "  run      Run one orchestration cycle and print the resulting task as JSON\n" ++
  "  task     Print one task by id\n" ++
  "  history  List recent tasks, newest first\n" ++
  "  chain    Talk to a configured chain network directly\n"

def program (words : List String) : IO UInt32 := do
  let listener : Listener ← IO.mkRef none
  match ← Command.execute (host listener) words with
  | .inr .refused =>
    IO.eprint usage
    return 2
  | .inr _ =>
    IO.print usage
    return 0
  | .inl (.printed text) =>
    IO.print text
    return 0
  | .inl (.failed t) =>
    IO.eprint (report t)
    return 1
  | .inl (.serving s address _ wiring) => serve listener s address wiring
  | .inl .aborted => return aborted

end ChainAgent.Machine

def main (words : List String) : IO UInt32 := ChainAgent.Machine.program words
