import ChainAgent.Text.Bytes
import ChainAgent.Text.Lowercase
import ChainAgent.Text.Redaction
import ChainAgent.Text.Visible
import ChainAgent.Url.Punycode

/-! Hosts of URLs.

A host in brackets is an IPv6 address. Any other is percent-decoded and converted to ASCII; one
whose last label is a number must be an IPv4 address, in any of its forms. -/
namespace ChainAgent.Url

/-- Why a text is no URL. -/
inductive Problem where
  | emptyHost
  | invalidDomain
  | invalidPort
  | invalidIpv4
  | invalidIpv6
  | invalidCharacter
  | relative
deriving DecidableEq

def Problem.message : Problem → String
  | .emptyHost => "empty host"
  | .invalidDomain => "invalid international domain name"
  | .invalidPort => "invalid port number"
  | .invalidIpv4 => "invalid IPv4 address"
  | .invalidIpv6 => "invalid IPv6 address"
  | .invalidCharacter => "invalid domain character"
  | .relative => "relative URL without a base"

def hexDigitValue (c : Char) : Nat :=
  if c.isDigit then c.toNat - 48 else if c.isLower then c.toNat - 87 else c.toNat - 55

/-- Percent-decoding. -/
def percentDecode : List Char → List UInt8
  | [] => []
  | '%' :: a :: b :: rest =>
    if Text.isHexDigit a && Text.isHexDigit b then
      UInt8.ofNat (hexDigitValue a * 16 + hexDigitValue b) :: percentDecode rest
    else '%'.toString.toUTF8.toList ++ percentDecode (a :: b :: rest)
  | c :: rest => c.toString.toUTF8.toList ++ percentDecode rest
  termination_by cs => cs.length

/-- Splits at a character. -/
def splitAt (mark : Char) (cs : List Char) : List (List Char) :=
  cs.foldr (fun c parts =>
    if c == mark then [] :: parts
    else match parts with
      | [] => [[c]]
      | p :: rest => (c :: p) :: rest) [[]]

/-! ### Numbers in the place of a name -/

/-- The number of a part of an IPv4 address: hex after `0x`, octal after `0`. -/
def ipv4Number (part : List Char) : Option Nat :=
  let inBase (base : Nat) (ds : List Char) : Option Nat :=
    if ds.all (fun c => Text.isHexDigit c && hexDigitValue c < base) then
      some (ds.foldl (fun n c => n * base + hexDigitValue c) 0)
    else none
  match part with
  | [] => none
  | '0' :: 'x' :: ds => inBase 16 ds
  | '0' :: 'X' :: ds => inBase 16 ds
  | '0' :: d :: ds => inBase 8 (d :: ds)
  | ds => inBase 10 ds

/-- The labels of a host; one empty label at the end is ignored. -/
def labels (host : List Char) : List (List Char) :=
  let parts := splitAt '.' host
  if parts.length > 1 && parts.getLast? == some [] then parts.dropLast else parts

/-- Whether the last label is a number, so that the host has to be an address. -/
def endsInNumber (host : List Char) : Bool :=
  match (labels host).getLast? with
  | none => false
  | some [] => false
  | some last => last.all Char.isDigit || (last.take 2 == ['0', 'x'] || last.take 2 == ['0', 'X'])
      && (ipv4Number last).isSome

/-- The IPv4 address of the parts of a host: the last part fills all the remaining bytes. -/
def ipv4Address (host : List Char) : Option Nat := do
  let parts := labels host
  if 4 < parts.length then none
  let ns ← parts.mapM ipv4Number
  let last ← ns.getLast?
  let front := ns.dropLast
  if front.any (255 < ·) || Nat.pow 256 (4 - front.length) ≤ last then none
  return (front.mapIdx fun i n => n * Nat.pow 256 (3 - i)).foldl (· + ·) last

def ipv4Text (a : Nat) : List Char :=
  ['.'].intercalate ([a / 16777216 % 256, a / 65536 % 256, a / 256 % 256, a % 256].map
    (Nat.toDigits 10))

/-! ### Addresses in brackets -/

/-- One group of hex digits. -/
def ipv6Group (cs : List Char) : Option Nat :=
  if cs.isEmpty || 4 < cs.length || !cs.all Text.isHexDigit then none
  else some (cs.foldl (fun n c => n * 16 + hexDigitValue c) 0)

/-- The two groups of an IPv4 address in dotted form. -/
def dottedGroups (cs : List Char) : Option (List Nat) := do
  let parts := splitAt '.' cs
  if parts.length != 4 then none
  let ns ← parts.mapM fun p =>
    if p.isEmpty || !p.all Char.isDigit || (p.length > 1 && p.head? == some '0') then none
    else
      let n := p.foldl (fun n c => n * 10 + (c.toNat - 48)) 0
      if 255 < n then none else some n
  match ns with
  | [a, b, c, d] => some [a * 256 + b, c * 256 + d]
  | _ => none

/-- Groups between colons; only the last may be in dotted form. -/
def ipv6Groups : List (List Char) → Option (List Nat)
  | [] => some []
  | [last] => if last.contains '.' then dottedGroups last else (ipv6Group last).map ([·])
  | g :: rest => do return (← ipv6Group g) :: (← ipv6Groups rest)

/-- The text in front of the first `::` and the text behind it. -/
def cutDoubleColon : List Char → Option (List Char × List Char)
  | [] => none
  | ':' :: ':' :: rest => some ([], rest)
  | c :: rest => (cutDoubleColon rest).map fun (a, b) => (c :: a, b)

def groupsOf (cs : List Char) : Option (List Nat) :=
  if cs.isEmpty then some [] else ipv6Groups (splitAt ':' cs)

/-- The eight groups of an IPv6 address; `::` stands for one or more groups of zero. -/
def ipv6Address (cs : List Char) : Option (List Nat) :=
  match cutDoubleColon cs with
  | none => do
    let gs ← groupsOf cs
    if gs.length == 8 then some gs else none
  | some (front, back) => do
    let a ← if front.contains '.' then none else groupsOf front
    let b ← groupsOf back
    if 7 < a.length + b.length then none
    else some (a ++ List.replicate (8 - a.length - b.length) 0 ++ b)

/-- The longest run of zero groups, the first of several, as place and length. -/
def longestZeros (gs : List Nat) : Nat × Nat :=
  let runs := (List.range gs.length).map fun i => (i, ((gs.drop i).takeWhile (· == 0)).length)
  runs.foldl (fun best r => if best.2 < r.2 then r else best) (0, 0)

def ipv6Text (gs : List Nat) : List Char :=
  let hex (gs : List Nat) : List Char := [':'].intercalate (gs.map (Nat.toDigits 16))
  let (place, size) := longestZeros gs
  if size < 2 then hex gs
  else hex (gs.take place) ++ [':', ':'] ++ hex (gs.drop (place + size))

/-! ### Names -/

/-- The forbidden domain characters. -/
def isForbidden (c : Char) : Bool :=
  c.toNat ≤ 0x20 || c.toNat == 0x7F || "#/:<>?@[\\]^|%".toList.contains c

/-- The mapping of a character in a domain name: lowercase, fullwidth forms to ASCII, and nothing
for an ignored character. -/
def mapped (c : Char) : List Char :=
  let n := c.toNat
  if n == 0x3002 || n == 0xFF0E || n == 0xFF61 then ['.']
  else if 0xFF01 ≤ n && n ≤ 0xFF5E then [(Char.ofNat (n - 0xFEE0)).toLower]
  else if n == 0xAD || n == 0x200B || n == 0x2060 || n == 0x2064 || n == 0xFEFF ||
      (0xFE00 ≤ n && n ≤ 0xFE0F) then []
  else if n == 0xDF then [c]
  else Text.lowerChar c

/-- Non-ASCII characters that are disallowed in a domain name. -/
def isUnassignable (c : Char) : Bool :=
  let n := c.toNat
  (0x80 ≤ n && n < 0xA1) || n == 0x1680 || (0x2000 ≤ n && n ≤ 0x200F) ||
    (0x2028 ≤ n && n ≤ 0x202F) || (0x205F ≤ n && n ≤ 0x206F) || n == 0x3000 ||
    (0xE000 ≤ n && n ≤ 0xF8FF) || (0xFDD0 ≤ n && n ≤ 0xFDEF) || (0xFFF0 ≤ n && n ≤ 0xFFFF) ||
    0xE0000 ≤ n

/-- Whether a non-ASCII label is valid: its characters are mapped to themselves, and the first is no
combining mark. -/
def isLabel (cs : List Char) : Bool :=
  !(cs.head?.any Text.isInvisible) && !cs.any isUnassignable && cs.flatMap mapped == cs

/-- The ASCII form of a label; none if it is invalid, or has the ASCII prefix without being valid
Punycode. -/
def asciiLabel (label : List Char) : Option (List Char) :=
  if label.all (·.toNat < 128) then
    if label.take 4 == "xn--".toList then
      match Punycode.decode (label.drop 4) with
      | some cs => if cs.all (·.toNat < 128) || !isLabel cs then none else some label
      | none => none
    else some label
  else if isLabel label then some ("xn--".toList ++ Punycode.encode label)
  else none

/-- The ASCII form of a domain name. -/
def asciiDomain (cs : List Char) : Option (List Char) := do
  let name := cs.flatMap mapped
  if name.any isForbidden then none
  return ['.'].intercalate (← (splitAt '.' name).mapM asciiLabel)

/-- The normalized host of a URL with a special scheme. -/
def webHost (cs : List Char) : Except Problem (List Char) :=
  match cs with
  | '[' :: rest =>
    if rest.getLast? != some ']' then .error .invalidIpv6
    else
      match ipv6Address rest.dropLast with
      | some gs => .ok ('[' :: (ipv6Text gs ++ [']']))
      | none => .error .invalidIpv6
  | _ =>
    let decoded := Text.decodeLossy ⟨(percentDecode cs).toArray⟩
    match asciiDomain decoded.toList with
    | none => .error .invalidDomain
    | some [] => .error .emptyHost
    | some name =>
      if endsInNumber name then
        match ipv4Address name with
        | some a => .ok (ipv4Text a)
        | none => .error .invalidIpv4
      else .ok name

end ChainAgent.Url
