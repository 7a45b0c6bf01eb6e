import ChainAgent.Toml.Value
import ChainAgent.Json.Printer
import ChainAgent.Json.Reader

/-! Strings of a TOML document.

A string is basic, with escapes, or literal, without; either kind has a multi-line form, where line
breaks and up to two quotes may stand as they are. The printer takes the plainest form that can hold
a text. -/
namespace ChainAgent.Toml

/-- Whether a character must be escaped in a string and may not stand in a comment. -/
def isControl (c : Char) : Bool := (c.toNat < 32 && c != '\t') || c.toNat == 127

def isSpace (c : Char) : Bool := c == ' ' || c == '\t'

/-! ### Reading -/

/-- The text after a line break. -/
def lineBreak? : List Char → Option (List Char)
  | '\n' :: rest => some rest
  | '\r' :: '\n' :: rest => some rest
  | _ => none

/-- The character of a code point, if it is a scalar value. -/
def charOf? (n : Nat) : Option Char :=
  if n < 0xD800 || (0xE000 ≤ n && n < 0x110000) then some (Char.ofNat n) else none

/-- The character of an escape with `count` hex digits, and the text after it. -/
def codeEscape (count : Nat) (cs : List Char) : Option (Char × List Char) := do
  let digits := cs.take count
  let n ← digits.foldlM (fun n c => return n * 16 + (← Json.hexValue c)) 0
  if digits.length == count then return (← charOf? n, cs.drop count) else none

/-- The character of an escape after its backslash, and the text after it. -/
def escape : List Char → Option (Char × List Char)
  | 'b' :: rest => some (Char.ofNat 8, rest)
  | 't' :: rest => some ('\t', rest)
  | 'n' :: rest => some ('\n', rest)
  | 'f' :: rest => some (Char.ofNat 12, rest)
  | 'r' :: rest => some ('\r', rest)
  | 'e' :: rest => some (Char.ofNat 27, rest)
  | '"' :: rest => some ('"', rest)
  | '\\' :: rest => some ('\\', rest)
  | 'x' :: rest => codeEscape 2 rest
  | 'u' :: rest => codeEscape 4 rest
  | 'U' :: rest => codeEscape 8 rest
  | _ => none

/-- A string on one line up to its closing quote. `fuel` bounds its characters. -/
def lineText (quote : Char) (made : List Char) : Nat → List Char → Option (String × List Char)
  | 0, _ => none
  | _, [] => none
  | fuel + 1, c :: rest =>
    if c == quote then some (String.ofList made.reverse, rest)
    else if c == '\\' && quote == '"' then
      match escape rest with
      | some (e, rest) => lineText quote (e :: made) fuel rest
      | none => none
    else if isControl c then none
    else lineText quote (c :: made) fuel rest

/-- The text after a line break that a backslash removes, together with the whitespace after it. -/
def foldedBreak? (cs : List Char) : Option (List Char) :=
  (lineBreak? (cs.dropWhile isSpace)).map fun rest =>
    rest.dropWhile fun c => isSpace c || c == '\n' || c == '\r'

/-- A multi-line string up to its closing quotes; of more than three quotes at its end the last
three close it. -/
def linesText (quote : Char) (made : List Char) : Nat → List Char → Option (String × List Char)
  | 0, _ => none
  | _, [] => none
  | fuel + 1, c :: rest =>
    if c == quote then
      let run := (c :: rest).takeWhile (· == quote)
      let behind := (c :: rest).drop run.length
      if run.length < 3 then linesText quote (run ++ made) fuel behind
      else if 5 < run.length then none
      else some (String.ofList (List.replicate (run.length - 3) quote ++ made).reverse, behind)
    else if c == '\\' && quote == '"' then
      match foldedBreak? rest with
      | some rest => linesText quote made fuel rest
      | none =>
        match escape rest with
        | some (e, rest) => linesText quote (e :: made) fuel rest
        | none => none
    else
      match lineBreak? (c :: rest) with
      | some rest => linesText quote ('\n' :: made) fuel rest
      | none => if isControl c then none else linesText quote (c :: made) fuel rest

/-- The string that begins with a quote. -/
def readText (cs : List Char) : Option (String × List Char) :=
  let several (quote : Char) (rest : List Char) :=
    linesText quote [] (rest.length + 1) ((lineBreak? rest).getD rest)
  match cs with
  | '"' :: '"' :: '"' :: rest => several '"' rest
  | '\'' :: '\'' :: '\'' :: rest => several '\'' rest
  | '"' :: rest => lineText '"' [] (rest.length + 1) rest
  | '\'' :: rest => lineText '\'' [] (rest.length + 1) rest
  | _ => none

/-! ### Writing -/

/-- The forms of a string. -/
inductive Style where
  | basic
  | literal
  | basicLines
  | literalLines
deriving DecidableEq

/-- The longest run of a character. -/
def longestRun (q : Char) (cs : List Char) : Nat :=
  (cs.foldl (fun (best, run) c => if c == q then (max best (run + 1), run + 1) else (best, 0))
    ((0, 0) : Nat × Nat)).1

/-- The plainest form that can hold a text. -/
def styleOf (cs : List Char) : Style :=
  let quotes := longestRun '"' cs
  let apostrophes := longestRun '\'' cs
  let solidus := cs.any (· == '\\')
  let codes := cs.any fun c => isControl c && c != '\n'
  let breaks := cs.any (· == '\n')
  if !codes && !solidus && quotes == 0 && !breaks then .basic
  else if !codes && apostrophes == 0 && !breaks then .literal
  else if !codes && !solidus && quotes ≤ 2 then .basicLines
  else if !codes && apostrophes ≤ 2 then .literalLines
  else if breaks then .basicLines
  else .basic

/-- The escape of a character in a basic string. -/
def escapeOf (several : Bool) (c : Char) : Option (List Char) :=
  let upper (n : Nat) : Char := (Json.hexDigit n).toUpper
  if c == '\t' then some ['\\', 't']
  else if c == '\n' then if several then none else some ['\\', 'n']
  else if c == '\r' then some ['\\', 'r']
  else if c == '\\' then some ['\\', '\\']
  else if c.toNat == 8 then some ['\\', 'b']
  else if c.toNat == 12 then some ['\\', 'f']
  else if isControl c then some ['\\', 'u', '0', '0', upper (c.toNat / 16), upper (c.toNat % 16)]
  else none

/-- The inside of a basic string; `run` quotes have just been written as they are, and
`limit` may be. -/
def escaped (several : Bool) (limit : Nat) : Nat → List Char → List Char
  | _, [] => []
  | run, c :: rest =>
    if c == '"' then
      if limit ≤ run then '\\' :: '"' :: escaped several limit 0 rest
      else '"' :: escaped several limit (run + 1) rest
    else
      match escapeOf several c with
      | some e => e ++ escaped several limit 0 rest
      | none => c :: escaped several limit 0 rest

/-- A text as a TOML string. -/
def quote (s : String) : String :=
  let cs := s.toList
  let first := if cs.any (· == '\n') then "\n" else ""
  match styleOf cs with
  | .basic => "\"" ++ String.ofList (escaped false 0 0 cs) ++ "\""
  | .literal => "'" ++ s ++ "'"
  | .basicLines => "\"\"\"" ++ first ++ String.ofList (escaped true 2 0 cs) ++ "\"\"\""
  | .literalLines => "'''" ++ first ++ s ++ "'''"

end ChainAgent.Toml
