import ChainAgent.Toml.Value
import ChainAgent.Json.Reader

/-! Numbers, booleans, dates and times of a TOML document.

Underscores may stand between two digits. An integer has at most 128 bits and may be hex, octal or
binary; a floating-point number has digits on both sides of its point. -/
namespace ChainAgent.Toml

/-- The digits of a number without underscores: each of these stands between two digits. -/
def plainDigits (isDigit : Char → Bool) : List Char → Option (List Char)
  | [] => none
  | [c] => if isDigit c then some [c] else none
  | c :: '_' :: rest => if isDigit c then (plainDigits isDigit rest).map (c :: ·) else none
  | c :: rest => if isDigit c then (plainDigits isDigit rest).map (c :: ·) else none

def isSmallDigit (base : Nat) (c : Char) : Bool := '0' ≤ c && c.toNat < '0'.toNat + base

/-- The sign of a number and the text after it. -/
def signOf : List Char → Bool × List Char
  | '+' :: rest => (false, rest)
  | '-' :: rest => (true, rest)
  | cs => (false, cs)

/-- Whether digits have no leading zero. -/
def isTrimmed (ds : List Char) : Bool := ds.length == 1 || ds.head? != some '0'

/-- The value of digits in a base. -/
def valueIn (base : Nat) (ds : List Char) : Nat :=
  ds.foldl (fun n c => n * base + (Json.hexValue c).getD 0) 0

/-- A 128-bit integer, signed or unsigned. -/
def bounded (n : Int) : Option Value :=
  if -(Nat.pow 2 127 : Int) ≤ n && n < (Nat.pow 2 128 : Int) then some (.integer n) else none

def integer? (cs : List Char) : Option Value :=
  let based (base : Nat) (isDigit : Char → Bool) (ds : List Char) : Option Value := do
    bounded (valueIn base (← plainDigits isDigit ds))
  match cs with
  | '0' :: 'x' :: ds => based 16 (fun c => (Json.hexValue c).isSome) ds
  | '0' :: 'o' :: ds => based 8 (isSmallDigit 8) ds
  | '0' :: 'b' :: ds => based 2 (isSmallDigit 2) ds
  | cs => do
    let (isNegative, ds) := signOf cs
    let ds ← plainDigits Char.isDigit ds
    if !isTrimmed ds then none
    let n : Int := Json.digitsValue ds
    bounded (if isNegative then -n else n)

/-- The number of digits with a decimal exponent, if it is in range. -/
def scaled? (isNegative : Bool) (ds : List Char) (exponent : Int) : Option Value :=
  let n := Json.digitsValue ds
  let size : Int := (Decimal.natDigits n).length
  if n == 0 || size + exponent < -400 then some (.real (Decimal.ofScaled isNegative 0 0))
  else if 400 < size + exponent then none
  else
    let x := Decimal.ofScaled isNegative n exponent
    if x.isInf then none else some (.real x)

/-- The exponent of a number. -/
def exponent? (cs : List Char) : Option Int := do
  let (isNegative, ds) := signOf cs
  let n : Int := Json.digitsValue (← plainDigits Char.isDigit ds)
  return if isNegative then -n else n

def real? (cs : List Char) : Option Value := do
  let (isNegative, body) := signOf cs
  if body == ['i', 'n', 'f'] then
    return .real (if isNegative then -(1 / 0) else 1 / 0)
  if body == ['n', 'a', 'n'] then return .real (0 / 0)
  let isMark (c : Char) : Bool := c == 'e' || c == 'E'
  let front := body.takeWhile (!isMark ·)
  let exponent ← match body.drop front.length with
    | [] => some 0
    | _ :: e => exponent? e
  let whole ← plainDigits Char.isDigit (front.takeWhile (· != '.'))
  if !isTrimmed whole then none
  match front.dropWhile (· != '.') with
  | [] => if front.length == body.length then none else scaled? isNegative whole exponent
  | _ :: fraction =>
    let fraction ← plainDigits Char.isDigit fraction
    scaled? isNegative (whole ++ fraction) (exponent - fraction.length)

/-! ### Dates and times -/

/-- A number of two digits below a bound, and the text after it. -/
def pair? (low below : Nat) : List Char → Option (Nat × List Char)
  | a :: b :: rest =>
    let n := Json.digitsValue [a, b]
    if a.isDigit && b.isDigit && low ≤ n && n < below then some (n, rest) else none
  | _ => none

def daysIn (year month : Nat) : Nat :=
  if month == 2 then
    if year % 4 == 0 && (year % 100 != 0 || year % 400 == 0) then 29 else 28
  else if month == 4 || month == 6 || month == 9 || month == 11 then 30
  else 31

/-- The text after a date. -/
def date? (cs : List Char) : Option (List Char) := do
  let year := cs.take 4
  if year.length != 4 || !year.all Char.isDigit then none
  match cs.drop 4 with
  | '-' :: rest =>
    match ← pair? 1 13 rest with
    | (month, '-' :: rest) =>
      let (_, rest) ← pair? 1 (daysIn (Json.digitsValue year) month + 1) rest
      return rest
    | _ => none
  | _ => none

/-- The text after the fraction of a second. -/
def fraction? : List Char → Option (List Char)
  | '.' :: rest =>
    let ds := rest.takeWhile Char.isDigit
    if ds.isEmpty then none else some (rest.drop ds.length)
  | cs => some cs

/-- The text after a time of day; its seconds may be missing. -/
def time? (cs : List Char) : Option (List Char) := do
  match ← pair? 0 24 cs with
  | (_, ':' :: rest) =>
    match ← pair? 0 60 rest with
    | (_, ':' :: rest) =>
      let (_, rest) ← pair? 0 61 rest
      fraction? rest
    | (_, rest) => return rest
  | _ => none

/-- Whether a text is a time zone offset, or empty. -/
def isOffset (cs : List Char) : Bool :=
  match cs with
  | [] => true
  | ['Z'] | ['z'] => true
  | sign :: rest =>
    (sign == '+' || sign == '-') &&
      match pair? 0 24 rest with
      | some (_, ':' :: rest) => (pair? 0 60 rest).any (·.2.isEmpty)
      | _ => false

def isMoment (cs : List Char) : Bool :=
  match date? cs with
  | some [] => true
  | some (sep :: rest) =>
    (sep == 'T' || sep == 't' || sep == ' ') && (time? rest).any isOffset
  | none => (time? cs).any (·.isEmpty)

/-- The value of a text without quotes, brackets and braces. -/
def scalar? (cs : List Char) : Option Value :=
  if cs == "true".toList then some (.bool true)
  else if cs == "false".toList then some (.bool false)
  else if isMoment cs then some .moment
  else integer? cs <|> real? cs

end ChainAgent.Toml
