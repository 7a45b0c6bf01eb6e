import ChainAgent.Settings.Decode
import ChainAgent.Settings.Encode
import ChainAgent.Settings.Environment
import ChainAgent.Settings.Validation
import ChainAgent.Host.Basic

/-! Loading and saving of a configuration. -/
namespace ChainAgent.Settings

/-- Why a configuration cannot be loaded. -/
inductive LoadFailure where
  | unreadable (path : String) (fault : Files.Fault)
  | unparsable (path : String)
  | refused (f : Failure)
  | homeless
  | directory (fault : Files.Fault)
  | unencodable
  | unwritable (fault : Files.Fault)

def LoadFailure.message : LoadFailure → String
  | .unreadable path _ => "Failed to read config file " ++ path
  | .unparsable path => "Failed to parse config file " ++ path
  | .refused f => f.message
  | .homeless => "Could not find home directory"
  | .directory _ => "Failed to create .chainpilot directory"
  | .unencodable => "Failed to serialize config"
  | .unwritable _ => "Failed to write config file"

variable {m : Type → Type} [Monad m]

/-- The environment variables that override a field. -/
def variablesOf (h : Host m) : m Variables := do
  let values ← variableNames.mapM h.environment
  return (variableNames.zip values).filterMap fun (name, value) => value.map (name, ·)

/-- The configuration with the environment applied, if it is valid. -/
def accepted (h : Host m) (s : Settings) : m (Except LoadFailure Settings) := do
  let s := s.overridden (← variablesOf h)
  match s.validate with
  | .ok _ => return .ok s
  | .error f => return .error (.refused f)

/-- The configuration of a file. Its relative paths start from the file's directory. -/
def loadFrom (h : Host m) (path : String) : m (Except LoadFailure Settings) := do
  match ← h.readText path with
  | .error f => return .error (.unreadable path f)
  | .ok text =>
    match parse text with
    | none => return .error (.unparsable path)
    | some s =>
      accepted h {s with path := path, baseDir := (Files.Path.parent? path).getD ""}

/-- Writes a configuration to its file. -/
def save (h : Host m) (s : Settings) : m (Except LoadFailure Unit) := do
  match s.encode with
  | none => return .error .unencodable
  | some text => return (← h.writeFile s.path text.toUTF8).mapError .unwritable

/-- The configuration directory in the home directory. -/
def directoryName : String := ".chainpilot"

def fileName : String := "config.toml"

/-- The configuration of the home directory; a missing file is created with the defaults. -/
def loadOrInit (h : Host m) : m (Except LoadFailure Settings) := do
  match ← h.home with
  | none => return .error .homeless
  | some home =>
    let directory := Files.Path.join home directoryName
    let path := Files.Path.join directory fileName
    let made ← if ← h.isPresent directory then pure (.ok ()) else h.createDirs directory
    match made with
    | .error f => return .error (.directory f)
    | .ok _ =>
      if ← h.isPresent path then loadFrom h path
      else
        let s : Settings := {path := path, baseDir := directory}
        match ← s.save h with
        | .error f => return .error f
        | .ok _ => accepted h s

end ChainAgent.Settings
