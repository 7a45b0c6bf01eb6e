import ChainAgent.Url.Host

/-! Parsing and printing of URLs.

`Url.parse` splits a text into scheme, host, port, path, query and fragment. The special schemes
share one syntax, in which any number of slashes or backslashes stands before the host and the host
may not be empty; URLs with other schemes are only checked for errors. -/
namespace ChainAgent

/-- A URL with a special scheme; a default port is absent. -/
structure Url where
  scheme : String
  userinfo : Option (List Char)
  host : List Char
  port : Option Nat
  path : List Char
  query : Option (List Char)
  fragment : Option (List Char)

namespace Url

/-- The special schemes and their default ports. -/
def webSchemes : List (String × Nat) :=
  [("http", 80), ("https", 443), ("ws", 80), ("wss", 443), ("ftp", 21)]

/-- Without leading and trailing control characters and spaces, and without tabs and line breaks. -/
def stripped (cs : List Char) : List Char :=
  let isEdge (c : Char) : Bool := c.toNat ≤ 0x20
  let inner := ((cs.dropWhile isEdge).reverse.dropWhile isEdge).reverse
  inner.filter fun c => c != '\t' && c != '\n' && c != '\r'

/-- The scheme in lowercase, and the text after its colon. -/
def splitScheme (cs : List Char) : Option (String × List Char) :=
  let name := cs.takeWhile fun c => c.isAlphanum || c == '+' || c == '-' || c == '.'
  match name, cs.drop name.length with
  | first :: _, ':' :: rest =>
    if first.isAlpha then some (String.ofList (name.map Char.toLower), rest) else none
  | _, _ => none

def isSlash (c : Char) : Bool := c == '/' || c == '\\'

/-- Whether the authority ends here. -/
def endsAuthority (isWeb : Bool) (c : Char) : Bool :=
  c == '/' || c == '?' || c == '#' || (isWeb && c == '\\')

/-- The text after the last occurrence of a character, and the text before it if it occurs. -/
def cutLast (mark : Char) (cs : List Char) : Option (List Char) × List Char :=
  let behind := (cs.reverse.takeWhile (· != mark)).reverse
  if cs.contains mark then (some (cs.take (cs.length - behind.length - 1)), behind)
  else (none, cs)

/-- The host and the text after its colon; a colon in brackets belongs to the host. -/
def splitPort (isOpen : Bool) : List Char → List Char × Option (List Char)
  | [] => ([], none)
  | c :: rest =>
    if c == ':' && !isOpen then ([], some rest)
    else
      let (host, port) := splitPort (if c == '[' then true else if c == ']' then false else isOpen) rest
      (c :: host, port)

/-- A port number; an empty one is absent. -/
def portNumber (cs : List Char) : Except Problem (Option Nat) :=
  if cs.isEmpty then .ok none
  else if !cs.all Char.isDigit then .error .invalidPort
  else
    let n := cs.foldl (fun n c => n * 10 + (c.toNat - 48)) 0
    if 65535 < n then .error .invalidPort else .ok (some n)

/-! ### Percent encoding -/

def upperHex (n : Nat) : Char := (Nat.toDigits 16 n).headD '0' |>.toUpper

/-- The percent-encoded UTF-8 bytes of a character. -/
def percentEncoded (c : Char) : List Char :=
  c.toString.toUTF8.toList.flatMap fun b => ['%', upperHex (b.toNat / 16), upperHex (b.toNat % 16)]

/-- Percent-encodes control characters, non-ASCII characters and the characters listed. -/
def encodeWith (also : List Char) (cs : List Char) : List Char :=
  cs.flatMap fun c =>
    if c.toNat < 0x20 || 0x7E < c.toNat || also.contains c then percentEncoded c else [c]

def pathEscapes : List Char := " \"#<>?`\x7b\x7d".toList

def queryEscapes : List Char := " \"#<>'".toList

def fragmentEscapes : List Char := " \"<>`".toList

def userinfoEscapes : List Char := pathEscapes ++ "/:;=@[\\]^|".toList

/-! ### Paths -/

def isSingleDot (s : List Char) : Bool :=
  s == ['.'] || s.map Char.toLower == "%2e".toList

def isDoubleDot (s : List Char) : Bool :=
  [".." , ".%2e", "%2e.", "%2e%2e"].any fun d => s.map Char.toLower == d.toList

/-- The segments of a path with dot segments resolved; `done` are those already read, last first. -/
def resolveDots (done : List (List Char)) : List (List Char) → List (List Char)
  | [] => done.reverse
  | [s] =>
    if isDoubleDot s then ([] :: done.drop 1).reverse
    else if isSingleDot s then ([] :: done).reverse
    else (s :: done).reverse
  | s :: rest =>
    if isDoubleDot s then resolveDots (done.drop 1) rest
    else if isSingleDot s then resolveDots done rest
    else resolveDots (s :: done) rest

/-- A path from its leading slash. -/
def webPath (cs : List Char) : List Char :=
  let flat := cs.map fun c => if c == '\\' then '/' else c
  let segments := splitAt '/' (match flat with
    | '/' :: rest => rest
    | rest => rest)
  '/' :: ['/'].intercalate ((resolveDots [] segments).map (encodeWith pathEscapes))

/-- The parts after the authority. -/
def splitTail (cs : List Char) : List Char × Option (List Char) × Option (List Char) :=
  let front := cs.takeWhile (· != '#')
  let fragment := match cs.drop front.length with
    | '#' :: rest => some rest
    | _ => none
  let path := front.takeWhile (· != '?')
  let query := match front.drop path.length with
    | '?' :: rest => some rest
    | _ => none
  (path, query, fragment)

/-- User name and password, each percent-encoded. -/
def userinfoText (cs : List Char) : List Char :=
  let name := cs.takeWhile (· != ':')
  match cs.drop name.length with
  | ':' :: password =>
    encodeWith userinfoEscapes name ++
      (if password.isEmpty then [] else ':' :: encodeWith userinfoEscapes password)
  | _ => encodeWith userinfoEscapes name

/-- A URL with a special scheme, after the scheme. -/
def parseWeb (scheme : String) (ownPort : Nat) (cs : List Char) : Except Problem Url := do
  let cs := cs.dropWhile isSlash
  let authority := cs.takeWhile (!endsAuthority true ·)
  let tail := cs.drop authority.length
  let (userinfo, hostPort) := cutLast '@' authority
  let (hostText, portText) := splitPort false hostPort
  if hostText.isEmpty then throw .emptyHost
  let host ← webHost hostText
  let port ← portNumber (portText.getD [])
  let (path, query, fragment) := splitTail tail
  return {
    scheme := scheme
    userinfo := (userinfo.map userinfoText).filter (!·.isEmpty)
    host := host
    port := port.filter (· != ownPort)
    path := webPath path
    query := query.map (encodeWith queryEscapes)
    fragment := fragment.map (encodeWith fragmentEscapes) }

/-- The forbidden host characters of other schemes. -/
def isForbiddenHost (c : Char) : Bool :=
  c.toNat == 0 || c == '\t' || c == '\n' || c == '\r' || " #/:<>?@[\\]^|".toList.contains c

/-- Whether a text with another scheme is a URL. Its host may be empty, but then it has no user and
no port, nor a path after a lone `@`. -/
def checkOther (cs : List Char) : Except Problem Unit :=
  match cs with
  | '/' :: '/' :: rest => do
    let authority := rest.takeWhile (!endsAuthority false ·)
    let (userinfo, hostPort) := cutLast '@' authority
    let (hostText, portText) := splitPort false hostPort
    let isLone := userinfo == some [] && hostPort.isEmpty && authority.length < rest.length
    let hasUser := userinfo.any fun u => !(userinfoText u).isEmpty
    if hostText.isEmpty && (isLone || hasUser || portText.isSome) then throw .emptyHost
    match hostText with
    | '[' :: _ => discard (webHost hostText)
    | _ => if hostText.any isForbiddenHost then throw .invalidCharacter
    discard (portNumber ((portText.getD []).takeWhile (· != '\\')))
  | _ => .ok ()

/-- Whether a text is a drive letter, which is no host. -/
def isDriveLetter : List Char → Bool
  | [letter, mark] => letter.isAlpha && (mark == ':' || mark == '|')
  | _ => false

/-- Checks the host of a file URL. -/
def checkFile (cs : List Char) : Except Problem Unit :=
  match cs with
  | a :: b :: rest =>
    if isSlash a && isSlash b then
      let host := rest.takeWhile (!endsAuthority true ·)
      if host.isEmpty || isDriveLetter host then .ok () else discard (webHost host)
    else .ok ()
  | _ => .ok ()

/-- The scheme of a URL, with its parts if the scheme is special. -/
def parse (s : String) : Except Problem (String × Option Url) :=
  match splitScheme (stripped s.toList) with
  | none => .error .relative
  | some (scheme, rest) =>
    match webSchemes.find? (·.1 == scheme) with
    | some (_, port) => (parseWeb scheme port rest).map fun u => (scheme, some u)
    | none => (if scheme == "file" then checkFile rest else checkOther rest).map fun _ => (scheme, none)

/-- The serialization of a URL. -/
def text (u : Url) : String :=
  let part (mark : List Char) (p : Option (List Char)) : List Char :=
    match p with
    | some cs => mark ++ cs
    | none => []
  u.scheme ++ "://" ++ String.ofList (
    (match u.userinfo with
      | some cs => cs ++ ['@']
      | none => []) ++
    u.host ++ part [':'] (u.port.map (Nat.toDigits 10)) ++ u.path ++ part ['?'] u.query ++
    part ['#'] u.fragment)

/-- The request target: path and query. -/
def target (u : Url) : String :=
  String.ofList (u.path ++ (match u.query with
    | some q => '?' :: q
    | none => []))

/-- The port of a URL, or the default port of its scheme. -/
def portInUse (u : Url) : Option Nat :=
  u.port <|> (webSchemes.find? (·.1 == u.scheme)).map (·.2)

/-- The URL of a reference relative to a base URL. -/
def resolve? (base : Url) (reference : String) : Option Url :=
  let web (s : String) : Option Url :=
    match parse s with
    | .ok (_, u) => u
    | .error _ => none
  let server := {base with path := [], query := none, fragment := none}.text
  let directory := (base.path.reverse.dropWhile (· != '/')).reverse
  let cs := stripped reference.toList
  if (splitScheme cs).isSome then web reference
  else
    match cs with
    | '/' :: '/' :: _ => web (base.scheme ++ ":" ++ reference)
    | '/' :: _ => web (server ++ reference)
    | '?' :: _ => web (server ++ String.ofList base.path ++ reference)
    | [] => some base
    | '#' :: _ => some base
    | _ => web (server ++ String.ofList directory ++ reference)

/-- The authority: host and port. -/
def authority (u : Url) : String :=
  String.ofList (u.host ++ (match u.port with
    | some p => ':' :: Nat.toDigits 10 p
    | none => []))

end Url

end ChainAgent
