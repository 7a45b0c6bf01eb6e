/-! Errors of file operations. -/
namespace ChainAgent.Files

inductive Fault where
  | missing
  | exists
  | isDirectory
  | notDirectory
  /-- The file is to be read as text and is not UTF-8. -/
  | notText
  | other (message : String)
deriving DecidableEq

/-- The system's description of the error. -/
def Fault.reason : Fault → String
  | .missing => "No such file or directory"
  | .exists => "File exists"
  | .isDirectory => "Is a directory"
  | .notDirectory => "Not a directory"
  | .notText => "stream did not contain valid UTF-8"
  | .other m => m

/-- The error number, for an error that the system reports. -/
def Fault.number : Fault → Option Nat
  | .missing => some 2
  | .exists => some 17
  | .isDirectory => some 21
  | .notDirectory => some 20
  | .notText => none
  | .other _ => none

def Fault.message (f : Fault) : String :=
  match f.number with
  | some n => f.reason ++ " (os error " ++ toString n ++ ")"
  | none => f.reason

end ChainAgent.Files
