import ChainAgent.Text.Redaction
import ChainAgent.Json.Reader
import ChainAgent.Time.Span

/-! Quantities, addresses and byte strings in hex.

Each starts with `0x`; surrounding whitespace is ignored. A 64-bit quantity may have a plus sign
before its digits, and a 256-bit one underscores between them. -/
namespace ChainAgent.Chain.Hex

/-- The digits after `0x` or `0X`. -/
def digits? (raw : String) : Option (List Char) :=
  match Text.trimChars raw.toList with
  | '0' :: 'x' :: ds => some ds
  | '0' :: 'X' :: ds => some ds
  | _ => none

/-- The value of hex digits. -/
def value? (ds : List Char) : Option Nat :=
  ds.foldl (fun n c => do return (← n) * 16 + (← Json.hexValue c)) (some 0)

/-- A quantity below `2 ^ 64`. -/
def quantity? (raw : String) : Option Nat := do
  let ds ← digits? raw
  let ds := match ds with
    | '+' :: rest => rest
    | ds => ds
  if ds.isEmpty then none
  let n ← value? ds
  if n < UInt64.size then some n else none

/-- A quantity of at most 64 digits. -/
def wide? (raw : String) : Option Nat := do
  let ds ← digits? raw
  if ds.isEmpty || 64 < (String.ofList ds).utf8ByteSize then none
  value? (ds.filter (· != '_'))

/-- The trimmed text with ASCII letters in lowercase. -/
def lowered (raw : String) : List Char := (Text.trimChars raw.toList).map Char.toLower

/-- A lowercase address: `0x` and forty hex digits. -/
def address? (raw : String) : Option String :=
  match lowered raw with
  | '0' :: 'x' :: ds =>
    if ds.length == 40 && ds.all Text.isHexDigit then some (String.ofList ('0' :: 'x' :: ds))
    else none
  | _ => none

/-- A lowercase byte string: `0x` and a positive even number of hex digits. -/
def blob? (raw : String) : Option String :=
  match lowered raw with
  | '0' :: 'x' :: ds =>
    if !ds.isEmpty && ds.length % 2 == 0 && ds.all Text.isHexDigit then
      some (String.ofList ('0' :: 'x' :: ds))
    else none
  | _ => none

/-- A number in hex with `0x`. -/
def ofNat (n : Nat) : String := String.ofList ('0' :: 'x' :: Nat.toDigits 16 n)

/-- The decimal places of one ether in wei. -/
def etherPlaces : Nat := 18

/-- An amount of wei in ether, without trailing zeros. -/
def etherText (wei : Nat) : String :=
  let fraction := Time.Span.places etherPlaces (wei % Nat.pow 10 etherPlaces)
  let point := if fraction.isEmpty then [] else '.' :: fraction
  String.ofList (Decimal.natDigits (wei / Nat.pow 10 etherPlaces) ++ point)

/-- The text after every leading `0x`. -/
def dropMarks : List Char → List Char
  | '0' :: 'x' :: rest => dropMarks rest
  | cs => cs

/-- The number of bytes of a hex text, rounded down. -/
def byteCount (raw : String) : Nat :=
  (String.ofList (dropMarks (Text.trimChars raw.toList))).utf8ByteSize / 2

end ChainAgent.Chain.Hex
