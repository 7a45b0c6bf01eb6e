import ChainAgent.Decimal.Integer
import ChainAgent.Json.Basic

/-! Parsing of JSON.

`readNode` parses as far as the text is well-formed and keeps what it has read: at a syntax error
the tree has `broken`, always as its last leaf. A decoder that walks the tree in order therefore
meets errors of the content and syntax errors in the order in which they stand. A string with a lone
surrogate and a number beyond the floating-point range are kept as such, because they are errors
only where their content is needed. `parse` needs everything: it gives a value exactly when the
whole text is JSON with fewer than 128 levels of nesting, no lone surrogates and numbers in
range. -/
namespace ChainAgent.Json

/-- The parse tree of a JSON text, as far as it is well-formed. -/
inductive Node where
  | null
  | bool (b : Bool)
  /-- A number; none beyond the floating-point range. -/
  | number (n : Option Numeral)
  /-- A string; none if it has a lone surrogate. -/
  | text (s : Option String)
  | array (items : List Node)
  | object (members : List (Option String × Node))
  /-- A syntax error. -/
  | broken

instance : Inhabited Node := ⟨.broken⟩

def isSpace (c : Char) : Bool := c == ' ' || c == '\n' || c == '\t' || c == '\r'

def skipSpace (cs : List Char) : List Char := cs.dropWhile isSpace

/-! ### Strings -/

def hexValue (c : Char) : Option Nat :=
  if c.isDigit then some (c.toNat - 48)
  else if 'a' ≤ c && c ≤ 'f' then some (c.toNat - 87)
  else if 'A' ≤ c && c ≤ 'F' then some (c.toNat - 55)
  else none

/-- The UTF-16 code unit of four hex digits. -/
def hexUnit (a b c d : Char) : Option Nat := do
  return (((← hexValue a) * 16 + (← hexValue b)) * 16 + (← hexValue c)) * 16 + (← hexValue d)

/-- The code unit of an escape after the backslash, `u` apart. -/
def shortEscape : Char → Option Nat
  | '"' => some 34
  | '\\' => some 92
  | '/' => some 47
  | 'b' => some 8
  | 'f' => some 12
  | 'n' => some 10
  | 'r' => some 13
  | 't' => some 9
  | _ => none

/-- The code units of a string up to its closing quote, last first, and the text after it. -/
def readUnits (units : List Nat) : List Char → Option (List Nat × List Char)
  | [] => none
  | '"' :: rest => some (units, rest)
  | '\\' :: 'u' :: a :: b :: c :: d :: rest =>
    match hexUnit a b c d with
    | some n => readUnits (n :: units) rest
    | none => none
  | '\\' :: e :: rest =>
    match shortEscape e with
    | some n => readUnits (n :: units) rest
    | none => none
  | c :: rest => if c.toNat < 32 || c == '\\' then none else readUnits (c.toNat :: units) rest

def isHighSurrogate (n : Nat) : Bool := 0xD800 ≤ n && n < 0xDC00

def isLowSurrogate (n : Nat) : Bool := 0xDC00 ≤ n && n < 0xE000

/-- Decodes code units, last first, in front of the characters already decoded; none for a lone
surrogate. -/
def joinUnits (made : List Char) : List Nat → Option (List Char)
  | [] => some made
  | low :: high :: rest =>
    if isLowSurrogate low then
      if isHighSurrogate high then
        joinUnits (Char.ofNat (0x10000 + (high - 0xD800) * 0x400 + (low - 0xDC00)) :: made) rest
      else none
    else if isHighSurrogate low then none
    else joinUnits (Char.ofNat low :: made) (high :: rest)
  | [n] => if isLowSurrogate n || isHighSurrogate n then none else some (Char.ofNat n :: made)

/-- A string after its opening quote. -/
def readText (cs : List Char) : Option (Option String × List Char) :=
  (readUnits [] cs).map fun (units, rest) => ((joinUnits [] units).map String.ofList, rest)

/-! ### Numbers -/

def digitsValue (ds : List Char) : Nat := ds.foldl (fun n c => n * 10 + (c.toNat - 48)) 0

/-- The number `digits * 10 ^ exponent`; none beyond the range. -/
def scaledNumeral (isNegative : Bool) (digits : Nat) (exponent : Int) : Option Numeral :=
  let size : Int := (Decimal.natDigits digits).length
  if digits == 0 || size + exponent < -400 then some (.real (Decimal.ofScaled isNegative 0 0))
  else if 400 < size + exponent then none
  else
    let x := Decimal.ofScaled isNegative digits exponent
    if x.isInf then none else some (.real x)

/-- An integer of 64 bits, otherwise the nearest floating-point number. -/
def integralNumeral (isNegative : Bool) (n : Nat) : Option Numeral :=
  if !isNegative && n < UInt64.size then some (.natural n)
  else if isNegative && 0 < n && n ≤ Decimal.integerBound then some (.negative n)
  else scaledNumeral isNegative n 0

/-- One or more digits and the text after them. -/
def readDigits (cs : List Char) : Option (List Char × List Char) :=
  let ds := cs.takeWhile Char.isDigit
  if ds.isEmpty then none else some (ds, cs.dropWhile Char.isDigit)

/-- The digits after a decimal point, if there is one, and the text after them. -/
def readFraction : List Char → Option (Option (List Char) × List Char)
  | '.' :: rest => (readDigits rest).map fun (ds, rest) => (some ds, rest)
  | cs => some (none, cs)

/-- The digits of an exponent with an optional sign, and the text after them. -/
def readSigned : List Char → Option (Int × List Char)
  | '+' :: rest => (readDigits rest).map fun (ds, rest) => ((digitsValue ds : Int), rest)
  | '-' :: rest => (readDigits rest).map fun (ds, rest) => (-(digitsValue ds : Int), rest)
  | cs => (readDigits cs).map fun (ds, rest) => ((digitsValue ds : Int), rest)

/-- The exponent, if there is one, and the text after it. -/
def readExponent : List Char → Option (Option Int × List Char)
  | 'e' :: rest => (readSigned rest).map fun (e, rest) => (some e, rest)
  | 'E' :: rest => (readSigned rest).map fun (e, rest) => (some e, rest)
  | cs => some (none, cs)

/-- The number of some digits, a fraction and an exponent. -/
def numeral (isNegative : Bool) (whole : List Char) :
    Option (List Char) → Option Int → Option Numeral
  | none, none => integralNumeral isNegative (digitsValue whole)
  | fraction, exponent =>
    let ds := fraction.getD []
    scaledNumeral isNegative (digitsValue (whole ++ ds)) (exponent.getD 0 - (ds.length : Nat))

/-- A number without its sign. -/
def readMagnitude (isNegative : Bool) (cs : List Char) : Option (Option Numeral × List Char) := do
  let (whole, rest) ← readDigits cs
  if 1 < whole.length && whole.head? == some '0' then none
  else
    let (fraction, rest) ← readFraction rest
    let (exponent, rest) ← readExponent rest
    return (numeral isNegative whole fraction exponent, rest)

def readNumber : List Char → Option (Option Numeral × List Char)
  | '-' :: rest => readMagnitude true rest
  | cs => readMagnitude false cs

/-! ### Trees -/

/-- A leaf other than a string. -/
def readScalar : List Char → Node × Option (List Char)
  | 'n' :: 'u' :: 'l' :: 'l' :: rest => (.null, some rest)
  | 't' :: 'r' :: 'u' :: 'e' :: rest => (.bool true, some rest)
  | 'f' :: 'a' :: 'l' :: 's' :: 'e' :: rest => (.bool false, some rest)
  | cs =>
    match readNumber cs with
    | some (n, rest) => (.number n, some rest)
    | none => (.broken, none)

mutual

/-- One node and the text after it, none at a syntax error. Every step into the text spends two
units of fuel at most. -/
def readNode : Nat → List Char → Node × Option (List Char)
  | 0, _ => (.broken, none)
  | fuel + 1, cs =>
    match skipSpace cs with
    | '{' :: rest =>
      match skipSpace rest with
      | '}' :: rest => (.object [], some rest)
      | rest =>
        let (members, rest) := readMembers fuel rest
        (.object members, rest)
    | '[' :: rest =>
      match skipSpace rest with
      | ']' :: rest => (.array [], some rest)
      | rest =>
        let (items, rest) := readItems fuel rest
        (.array items, rest)
    | '"' :: rest =>
      match readText rest with
      | some (s, rest) => (.text s, some rest)
      | none => (.broken, none)
    | cs => readScalar cs

/-- The items of an array from the first one on. -/
def readItems : Nat → List Char → List Node × Option (List Char)
  | 0, _ => ([.broken], none)
  | fuel + 1, cs =>
    let (item, rest) := readNode fuel cs
    match rest with
    | none => ([item], none)
    | some rest =>
      match skipSpace rest with
      | ',' :: rest =>
        let (items, rest) := readItems fuel rest
        (item :: items, rest)
      | ']' :: rest => ([item], some rest)
      | _ => ([item, .broken], none)

/-- The members of an object from the first one on. -/
def readMembers : Nat → List Char → List (Option String × Node) × Option (List Char)
  | 0, _ => ([(none, .broken)], none)
  | fuel + 1, cs =>
    match skipSpace cs with
    | '"' :: rest =>
      match readText rest with
      | none => ([(none, .broken)], none)
      | some (key, rest) =>
        match skipSpace rest with
        | ':' :: rest =>
          let (item, rest) := readNode fuel rest
          match rest with
          | none => ([(key, item)], none)
          | some rest =>
            match skipSpace rest with
            | ',' :: rest =>
              let (members, rest) := readMembers fuel rest
              ((key, item) :: members, rest)
            | '}' :: rest => ([(key, item)], some rest)
            | _ => ([(key, item), (none, .broken)], none)
        | _ => ([(key, .broken)], none)
    | _ => ([(none, .broken)], none)

end

/-- A text parsed as one node, and whether the text ends there. -/
def readDocument (s : String) : Node × Bool :=
  let cs := s.toList
  match readNode (2 * cs.length + 2) cs with
  | (node, some rest) => (node, (skipSpace rest).isEmpty)
  | (node, none) => (node, false)

/-! ### Values -/

mutual

/-- The value of a node with at most `depth` levels of nesting; none if it has any error. -/
def Node.value? (depth : Nat) : Node → Option Value
  | .null => some .null
  | .bool b => some (.bool b)
  | .number n => n.map .number
  | .text s => s.map .text
  | .array items =>
    match depth with
    | 0 => none
    | depth + 1 => (itemValues? depth items).map .array
  | .object members =>
    match depth with
    | 0 => none
    | depth + 1 => (memberValues? depth members).map .object
  | .broken => none

def itemValues? (depth : Nat) : List Node → Option (List Value)
  | [] => some []
  | n :: rest =>
    match n.value? depth, itemValues? depth rest with
    | some v, some vs => some (v :: vs)
    | _, _ => none

def memberValues? (depth : Nat) : List (Option String × Node) → Option (List (String × Value))
  | [] => some []
  | (key, n) :: rest =>
    match key, n.value? depth, memberValues? depth rest with
    | some k, some v, some vs => some ((k, v) :: vs)
    | _, _, _ => none

end

/-- The greatest depth of nesting. -/
def nestingLimit : Nat := 127

/-- The value of a text, members in the order of the text. -/
def parse (s : String) : Option Value :=
  match readDocument s with
  | (node, true) => node.value? nestingLimit
  | (_, false) => none

mutual

/-- A value as a parse tree, with the members of objects sorted by name and only the last of each
name. -/
def Value.node : Value → Node
  | .null => .null
  | .bool b => .bool b
  | .number n => .number (some n)
  | .text s => .text (some s)
  | .array items => .array (itemNodes items)
  | .object members => .object (sortNodes (memberNodes members))

def itemNodes : List Value → List Node
  | [] => []
  | v :: rest => v.node :: itemNodes rest

def memberNodes : List (String × Value) → List (String × Node)
  | [] => []
  | (k, v) :: rest => (k, v.node) :: memberNodes rest

/-- Members sorted by name, the last of each name. -/
def sortNodes (members : List (String × Node)) : List (Option String × Node) :=
  let put (sorted : List (String × Node)) (m : String × Node) : List (String × Node) :=
    sorted.filter (·.1 < m.1) ++ m :: sorted.filter (m.1 < ·.1)
  (members.foldl put []).map fun m => (some m.1, m.2)

end

end ChainAgent.Json
