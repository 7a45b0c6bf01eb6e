import ChainAgent.Decimal.Integer

/-! Parsing of the command line.

A command has options, each with one value, and positional arguments or a subcommand. The value of
an option follows its name after `=` or as the next word; a word that begins with a hyphen is no
value, and after `--` every word is positional. -/
namespace ChainAgent

/-- The subcommands of `chain`. -/
inductive Command.OnChain where
  | networks
  | snapshot
  | logs (address : Option String) (topics : List String) (fromBlock toBlock : Option Nat)
  | deploy (raw : String)
  | send (raws : List String)

/-- The commands of the program. -/
inductive Command where
  | serve (host : Option String) (port : Option Nat)
  | run (goal : String) (action address : Option String)
  | task (id : Int64)
  | history (limit : Nat)
  | chain (network : Option String) (c : Command.OnChain)

namespace Command

/-- A command and the path of the configuration, if it is given. -/
structure Invocation where
  config : Option String
  command : Command

/-- Why a command line gives no command: help, the version or a usage error. -/
inductive Stop where
  | refused
  | help
  | version
deriving DecidableEq

/-! ### Words -/

/-- An option of a command. -/
structure Flag where
  name : String
  letter : Option Char := none
  /-- Whether the option may be repeated. -/
  isRepeatable : Bool := false
  accepts : String → Bool := fun _ => true

/-- What a command takes besides options. -/
inductive Operands where
  | nothing
  | one (accepts : String → Bool)
  | several
  | commands (names : List String)

structure Level where
  flags : List Flag
  /-- The required options. -/
  required : List String := []
  operands : Operands := .nothing
  hasVersion : Bool := false

/-- The options and words that have been parsed so far. -/
structure Said where
  values : List (String × String) := []
  operands : List String := []
  /-- The subcommand and the words after it. -/
  next : Option (String × List String) := none

namespace Said

def value? (s : Said) (name : String) : Option String := (s.values.find? (·.1 == name)).map (·.2)

def all (s : Said) (name : String) : List String := (s.values.filter (·.1 == name)).map (·.2)

/-- Sets the value of an option. -/
def give (s : Said) (f : Flag) (value : String) : Except Stop Said :=
  if !f.accepts value || (!f.isRepeatable && (s.value? f.name).isSome) then .error .refused
  else .ok {s with values := s.values ++ [(f.name, value)]}

/-- Adds a positional argument. -/
def add (s : Said) (o : Operands) (word : String) : Except Stop Said :=
  let added : Said := {s with operands := s.operands ++ [word]}
  match o with
  | .one accepts => if s.operands.isEmpty && accepts word then .ok added else .error .refused
  | .several => .ok added
  | _ => .error .refused

end Said

/-- Whether a word is an option, and so no value. -/
def isOption (word : String) : Bool :=
  match word.toList with
  | '-' :: _ :: _ => true
  | _ => false

/-- The value of a short option that is attached to its letter. -/
def joined : List Char → String
  | '=' :: value => String.ofList value
  | value => String.ofList value

/-- The option of a word, and its value if that is attached. -/
def optionOf (l : Level) (word : String) : Except Stop (Flag × Option String) :=
  let find (p : Flag → Bool) : Except Stop Flag := match l.flags.find? p with
    | some f => .ok f
    | none => .error .refused
  match word.toList with
  | '-' :: '-' :: cs =>
    let name := cs.takeWhile (· != '=')
    let value := if name.length == cs.length then none else some (String.ofList (cs.drop (name.length + 1)))
    let name := String.ofList name
    if name == "help" && value.isNone then .error .help
    else if name == "version" && value.isNone && l.hasVersion then .error .version
    else (find (·.name == name)).map (·, value)
  | '-' :: c :: cs =>
    if c == 'h' then .error .help
    else if c == 'V' && l.hasVersion then .error .version
    else (find (·.letter == some c)).map (·, if cs.isEmpty then none else some (joined cs))
  | _ => .error .refused

/-- Whether a word is a subcommand of a level. -/
def Level.hasCommand (l : Level) (word : String) : Bool :=
  match l.operands with
  | .commands names => names.contains word
  | _ => false

/-- Parses the words of a level up to its subcommand. -/
def scan (l : Level) (s : Said) : List String → Except Stop Said
  | [] => .ok s
  | "--" :: rest => rest.foldlM (fun s word => s.add l.operands word) s
  | word :: rest =>
    if isOption word then
      match optionOf l word with
      | .error stop => .error stop
      | .ok (f, some value) =>
        match s.give f value with
        | .error stop => .error stop
        | .ok s => scan l s rest
      | .ok (f, none) =>
        match rest with
        | [] => .error .refused
        | value :: rest =>
          if isOption value then .error .refused
          else
            match s.give f value with
            | .error stop => .error stop
            | .ok s => scan l s rest
    else if l.hasCommand word then .ok {s with next := some (word, rest)}
    else
      match s.add l.operands word with
      | .error stop => .error stop
      | .ok s => scan l s rest
  termination_by words => words.length

/-- The parsed words of a level, if no required one is missing. -/
def read (l : Level) (words : List String) : Except Stop Said := do
  let s ← scan l {} words
  let isComplete := l.required.all (fun name => (s.value? name).isSome) && match l.operands with
    | .nothing => true
    | .commands _ => s.next.isSome
    | _ => !s.operands.isEmpty
  if isComplete then return s else throw .refused

/-! ### Commands -/

def isWord (word : String) : Bool := !word.isEmpty

def isNatural (bound : Nat) (word : String) : Bool := (Decimal.natural? bound word).isSome

/-- The port of a word. The sign is parsed too, so that `-0` is a port. -/
def port? (word : String) : Option Nat :=
  match Decimal.integer? word with
  | some n => if 0 ≤ n && n.toInt < UInt16.size then some n.toInt.toNat else none
  | none => none

/-- The global `--config` option. -/
def configFlag : Flag := {name := "config", accepts := isWord}

def chainCommands : List String := ["networks", "snapshot", "logs", "deploy", "send"]

def commands : List String := ["serve", "run", "task", "history", "chain"]

/-- The `help` subcommand. -/
def helpWord : String := "help"

def top : Level :=
  {flags := [configFlag], operands := .commands (helpWord :: commands), hasVersion := true}

def serveLevel : Level :=
  {flags := [configFlag, {name := "host"},
    {name := "port", letter := some 'p', accepts := fun w => (port? w).isSome}]}

def runLevel : Level :=
  {flags := [configFlag, {name := "goal", letter := some 'g'}, {name := "action", letter := some 'a'},
    {name := "address"}], required := ["goal"]}

def taskLevel : Level :=
  {flags := [configFlag], operands := .one fun w => (Decimal.integer? w).isSome}

def historyLevel : Level :=
  {flags := [configFlag, {name := "limit", letter := some 'l', accepts := isNatural UInt64.size}]}

def chainLevel : Level :=
  {flags := [configFlag, {name := "network", letter := some 'n'}],
    operands := .commands (helpWord :: chainCommands)}

def logsLevel : Level :=
  {flags := [configFlag, {name := "address"}, {name := "topic", isRepeatable := true},
    {name := "from-block", accepts := isNatural UInt64.size},
    {name := "to-block", accepts := isNatural UInt64.size}]}

def plainLevel : Level := {flags := [configFlag]}

def deployLevel : Level := {flags := [configFlag], operands := .one fun _ => true}

def sendLevel : Level := {flags := [configFlag], operands := .several}

/-- The help on the command that the words name, if there is one. -/
def helpOn {α : Type} (names : List String) : List String → Except Stop α
  | [] => .error .help
  | [word] => .error (if (helpWord :: names).contains word then .help else .refused)
  | [word, below] =>
    .error (if word == "chain" && names.contains word && (helpWord :: chainCommands).contains below
      then .help else .refused)
  | _ => .error .refused

/-- A subcommand of `chain` with its parsed words. -/
def chainCommandOf (name : String) (words : List String) : Except Stop (OnChain × Said) := do
  match name with
  | "networks" => return (.networks, ← read plainLevel words)
  | "snapshot" => return (.snapshot, ← read plainLevel words)
  | "logs" =>
    let s ← read logsLevel words
    let block (name : String) : Option Nat := s.value? name >>= Decimal.natural? UInt64.size
    return (.logs (s.value? "address") (s.all "topic") (block "from-block") (block "to-block"), s)
  | "deploy" =>
    let s ← read deployLevel words
    return (.deploy (s.operands.headD ""), s)
  | "send" =>
    let s ← read sendLevel words
    return (.send s.operands, s)
  | _ => helpOn chainCommands words

/-- A command with the parsed words of all its levels, innermost first. -/
def commandOf (name : String) (words : List String) : Except Stop (Command × List Said) := do
  match name with
  | "serve" =>
    let s ← read serveLevel words
    return (.serve (s.value? "host") (s.value? "port" >>= port?), [s])
  | "run" =>
    let s ← read runLevel words
    return (.run ((s.value? "goal").getD "") (s.value? "action") (s.value? "address"), [s])
  | "task" =>
    let s ← read taskLevel words
    return (.task (((s.operands.head?) >>= Decimal.integer?).getD 0), [s])
  | "history" =>
    let s ← read historyLevel words
    return (.history ((s.value? "limit" >>= Decimal.natural? UInt64.size).getD 10), [s])
  | "chain" =>
    let s ← read chainLevel words
    let (below, rest) := s.next.getD ("", [])
    let (c, last) ← chainCommandOf below rest
    return (.chain (s.value? "network") c, [last, s])
  | _ => helpOn commands words

/-- Parses a command line. Of several `--config` options the last one wins. -/
def parse (words : List String) : Except Stop Invocation := do
  let s ← read top words
  let (name, rest) := s.next.getD ("", [])
  let (command, below) ← commandOf name rest
  return ⟨(below ++ [s]).findSome? (·.value? "config"), command⟩

end Command

end ChainAgent
