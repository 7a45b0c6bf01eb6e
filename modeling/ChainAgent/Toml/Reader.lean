import ChainAgent.Toml.Text
import ChainAgent.Toml.Scalar

/-! Parsing of TOML documents.

A document is parsed line by line: a header selects the table of the members below it. What a line
may add depends on how the tables on its path were defined, so that no table is defined twice and no
inline table is extended. -/
namespace ChainAgent.Toml

/-! ### Putting members in their places -/

/-- Changes the table at the end of a path below a table. A missing table on the path is created,
implicitly by a header or by a dotted key; an array of tables stands for its last table. -/
def change (isDotted : Bool) (f : Form → Members → Option Members) (form : Form) :
    List String → Members → Option Members
  | [], ms => f form ms
  | key :: path, ms =>
    match find? key ms with
    | none => do
      let made : Form := if isDotted then .dotted else .implied
      return ms ++ [(key, .table made (← change isDotted f made path []))]
    | some (.table form inner) =>
      if form == .closed || (isDotted && form == .headed) then none
      else do return replace key (.table form (← change isDotted f form path inner)) ms
    | some (.tables items) =>
      if isDotted then none
      else
        match items.getLast? with
        | none => none
        | some inner => do
          return replace key (.tables (items.dropLast ++ [← change isDotted f .headed path inner])) ms
    | some _ => none

/-- Adds a member under a dotted key, whose last part is its name. -/
def put (path : List String) (name : String) (v : Value) (ms : Members) : Option Members :=
  change true (fun form ms =>
    -- The tables of a dotted key are made by dotted keys alone.
    if !path.isEmpty && form != .dotted then none else add? name v ms) .headed path ms

/-- Defines a table by its header. -/
def openTable (path : List String) (name : String) (ms : Members) : Option Members :=
  change false (fun _ ms =>
    match find? name ms with
    | none => some (ms ++ [(name, .table .headed [])])
    | some (.table .implied inner) => some (replace name (.table .headed inner) ms)
    | some _ => none) .headed path ms

/-- Adds a table to an array of tables by its header. -/
def openNext (path : List String) (name : String) (ms : Members) : Option Members :=
  change false (fun _ ms =>
    match find? name ms with
    | none => some (ms ++ [(name, .tables [[]])])
    | some (.tables items) => some (replace name (.tables (items ++ [[]])) ms)
    | some _ => none) .headed path ms

/-- Adds a member to the table at the end of a header's path. -/
def putUnder (header : List String) (path : List String) (name : String) (v : Value)
    (ms : Members) : Option Members :=
  change false (fun _ ms => put path name v ms) .headed header ms

/-! ### Keys and blanks -/

def skipSpace (cs : List Char) : List Char := cs.dropWhile isSpace

def isKeyChar (c : Char) : Bool := c.isAlphanum || c == '_' || c == '-'

/-- One part of a key. -/
def keyPart (cs : List Char) : Option (String × List Char) :=
  match cs with
  | '"' :: rest => lineText '"' [] (rest.length + 1) rest
  | '\'' :: rest => lineText '\'' [] (rest.length + 1) rest
  | _ =>
    let bare := cs.takeWhile isKeyChar
    if bare.isEmpty then none else some (String.ofList bare, cs.drop bare.length)

/-- The parts of a key and the text after the whitespace after it; `fuel` bounds the parts. -/
def keyParts : Nat → List Char → Option (List String × List Char)
  | 0, _ => none
  | fuel + 1, cs => do
    let (part, rest) ← keyPart (skipSpace cs)
    match skipSpace rest with
    | '.' :: rest =>
      let (parts, rest) ← keyParts fuel rest
      return (part :: parts, rest)
    | rest => return ([part], rest)

def key (cs : List Char) : Option (List String × List Char) := keyParts (cs.length + 1) cs

/-- The text after a comment, if one begins here; none if it has a control character. -/
def skipComment (cs : List Char) : Option (List Char) :=
  match cs with
  | '#' :: rest =>
    let behind := rest.dropWhile (!isControl ·)
    if behind.isEmpty || (lineBreak? behind).isSome then some behind else none
  | _ => some cs

/-- The text after whitespace, comments and line breaks; `fuel` bounds the lines. -/
def skipLines : Nat → List Char → Option (List Char)
  | 0, _ => none
  | fuel + 1, cs => do
    let rest ← skipComment (skipSpace cs)
    match lineBreak? rest with
    | some rest => skipLines fuel rest
    | none => return rest

def skipBlank (cs : List Char) : Option (List Char) := skipLines (cs.length + 1) cs

/-! ### Values -/

def isScalarChar (c : Char) : Bool :=
  c.isAlphanum || c == '_' || c == '-' || c == '+' || c == '.' || c == ':'

/-- A value without quotes and brackets; a space may separate a date from a time. -/
def scalar (cs : List Char) : Option (Value × List Char) :=
  let first := cs.takeWhile isScalarChar
  let rest := cs.drop first.length
  let (word, rest) := match rest with
    | ' ' :: d :: more =>
      if (date? first).any (·.isEmpty) && d.isDigit then
        let second := (d :: more).takeWhile isScalarChar
        (first ++ ' ' :: second, (d :: more).drop second.length)
      else (first, rest)
    | _ => (first, rest)
  (scalar? word).map (·, rest)

/-- The greatest depth of arrays and inline tables. -/
def depthLimit : Nat := 80

mutual

/-- A value at a depth of nesting; `fuel` bounds the steps. -/
def value (depth : Nat) : Nat → List Char → Option (Value × List Char)
  | 0, _ => none
  | fuel + 1, cs =>
    match cs with
    | '"' :: _ | '\'' :: _ => (readText cs).map fun (s, rest) => (.text s, rest)
    | '[' :: rest =>
      if depthLimit ≤ depth then none
      else (items (depth + 1) fuel rest).map fun (vs, rest) => (.array vs, rest)
    | '{' :: rest =>
      if depthLimit ≤ depth then none
      else (pairs (depth + 1) [] fuel rest).map fun (ms, rest) => (.table .closed ms, rest)
    | _ => scalar cs

/-- The items of an array after its bracket or after a comma. -/
def items (depth : Nat) : Nat → List Char → Option (List Value × List Char)
  | 0, _ => none
  | fuel + 1, cs => do
    match ← skipBlank cs with
    | ']' :: rest => return ([], rest)
    | cs =>
      let (v, rest) ← value depth fuel cs
      match ← skipBlank rest with
      | ']' :: rest => return ([v], rest)
      | ',' :: rest =>
        let (vs, rest) ← items depth fuel rest
        return (v :: vs, rest)
      | _ => none

/-- The members of an inline table after its brace or after a comma. -/
def pairs (depth : Nat) (ms : Members) : Nat → List Char → Option (Members × List Char)
  | 0, _ => none
  | fuel + 1, cs => do
    match ← skipBlank cs with
    | '}' :: rest => return (ms, rest)
    | cs =>
      match ← key cs with
      | (parts, '=' :: rest) =>
        let (v, rest) ← value depth fuel (skipSpace rest)
        let ms ← put parts.dropLast (parts.getLast?.getD "") v ms
        match ← skipBlank rest with
        | '}' :: rest => return (ms, rest)
        | ',' :: rest => pairs depth ms fuel rest
        | _ => none
      | _ => none

end

/-! ### Documents -/

/-- The text after the end of a line. -/
def endLine (cs : List Char) : Option (List Char) := do
  let rest ← skipComment (skipSpace cs)
  if rest.isEmpty then return [] else lineBreak? rest

/-- The path of a header after its opening bracket. -/
def header (closing : List Char) (cs : List Char) : Option (List String × List Char) := do
  let (parts, rest) ← key cs
  if closing.isPrefixOf rest then return (parts, ← endLine (rest.drop closing.length)) else none

/-- Parses line after line with the current header and the members so far. `fuel` bounds the
lines. -/
def readLines (current : List String) (ms : Members) : Nat → List Char → Option Members
  | 0, _ => none
  | fuel + 1, cs => do
    match ← skipBlank cs with
    | [] => return ms
    | '[' :: '[' :: rest =>
      let (parts, rest) ← header [']', ']'] rest
      readLines parts (← openNext parts.dropLast (parts.getLast?.getD "") ms) fuel rest
    | '[' :: rest =>
      let (parts, rest) ← header [']'] rest
      readLines parts (← openTable parts.dropLast (parts.getLast?.getD "") ms) fuel rest
    | cs =>
      match ← key cs with
      | (parts, '=' :: rest) =>
        let rest := skipSpace rest
        let (v, rest) ← value 0 (rest.length + 1) rest
        let ms ← putUnder current parts.dropLast (parts.getLast?.getD "") v ms
        readLines current ms fuel (← endLine rest)
      | _ => none

/-- The members of a document; a leading byte order mark is ignored. -/
def parse (s : String) : Option Members :=
  let cs := match s.toList with
    | c :: rest => if c.toNat == 0xFEFF then rest else c :: rest
    | [] => []
  readLines [] [] (cs.length + 1) cs

end ChainAgent.Toml
