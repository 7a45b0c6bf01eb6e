/-! Punycode: the encoding of Unicode labels in ASCII.

A label is encoded as its ASCII characters, a hyphen and the positions of the others as
variable-length integers, the first and most common of which are short. -/
namespace ChainAgent.Url.Punycode

/-- The adaptation of the bias to the deltas encoded so far. -/
def adapt (delta points : Nat) (isFirst : Bool) : Nat :=
  let delta := if isFirst then delta / 700 else delta / 2
  let rec shrink : Nat → Nat → Nat → Nat × Nat
    | 0, d, k => (d, k)
    | fuel + 1, d, k => if 455 < d then shrink fuel (d / 35) (k + 36) else (d, k)
  let (d, k) := shrink 64 (delta + delta / points) 0
  k + 36 * d / (d + 38)

def threshold (k bias : Nat) : Nat := min 26 (max 1 (k - bias))

def digit (n : Nat) : Char := if n < 26 then Char.ofNat (97 + n) else Char.ofNat (22 + n)

def digitValue (c : Char) : Option Nat :=
  if c.isLower then some (c.toNat - 97)
  else if c.isUpper then some (c.toNat - 65)
  else if c.isDigit then some (c.toNat - 22)
  else none

/-- A variable-length integer. -/
def number : Nat → Nat → Nat → Nat → List Char
  | 0, _, _, _ => []
  | fuel + 1, q, k, bias =>
    let t := threshold k bias
    if q < t then [digit q]
    else digit (t + (q - t) % (36 - t)) :: number fuel ((q - t) / (36 - t)) (k + 36) bias

/-- The state of the encoder: the code points below `n`, `handled` in number, are encoded. -/
structure State where
  n : Nat
  delta : Nat
  bias : Nat
  handled : Nat
  out : List Char

/-- Encodes every occurrence of the code point `n`. -/
def place (basic : Nat) (n : Nat) (s : State) : List Nat → State
  | [] => s
  | c :: rest =>
    if c < n then place basic n {s with delta := s.delta + 1} rest
    else if c == n then
      let written := number 64 s.delta 36 s.bias
      place basic n
        {s with
          delta := 0
          bias := adapt s.delta (s.handled + 1) (s.handled == basic)
          handled := s.handled + 1
          out := s.out ++ written} rest
    else place basic n s rest

def encodeFrom (label : List Nat) (basic : Nat) : Nat → State → State
  | 0, s => s
  | fuel + 1, s =>
    if label.length ≤ s.handled then s
    else
      match (label.filter (s.n ≤ ·)).min? with
      | none => s
      | some m =>
        let s := {s with delta := s.delta + (m - s.n) * (s.handled + 1), n := m}
        let s := place basic m s label
        encodeFrom label basic fuel {s with delta := s.delta + 1, n := s.n + 1}

/-- The encoding of a label, without the ASCII prefix. -/
def encode (label : List Char) : List Char :=
  let basic := label.filter (·.toNat < 128)
  let start : State := ⟨128, 0, 72, basic.length, if basic.isEmpty then [] else basic ++ ['-']⟩
  (encodeFrom (label.map Char.toNat) basic.length label.length start).out

/-- One variable-length integer, and the text after it. -/
def readNumber : Nat → List Char → Nat → Nat → Nat → Nat → Option (Nat × List Char)
  | 0, _, _, _, _, _ => none
  | _, [], _, _, _, _ => none
  | fuel + 1, c :: rest, i, w, k, bias => do
    let d ← digitValue c
    let i := i + d * w
    let t := threshold k bias
    if d < t then return (i, rest) else readNumber fuel rest i (w * (36 - t)) (k + 36) bias

def decodeFrom : Nat → List Char → List Nat → Nat → Nat → Nat → Option (List Nat)
  | 0, _, _, _, _, _ => none
  | _, [], out, _, _, _ => some out
  | fuel + 1, cs, out, n, i, bias => do
    let (j, rest) ← readNumber 64 cs i 1 36 bias
    let size := out.length + 1
    let n := n + j / size
    if 0x10FFFF < n then none
    else
      decodeFrom fuel rest (out.take (j % size) ++ n :: out.drop (j % size)) n (j % size + 1)
        (adapt (j - i) size (i == 0))

/-- Decodes a label. -/
def decode (cs : List Char) : Option (List Char) :=
  let basic := (cs.reverse.dropWhile (· != '-')).drop 1 |>.reverse
  let rest := if cs.contains '-' then cs.drop (basic.length + 1) else cs
  (decodeFrom (cs.length + 1) rest (basic.map Char.toNat) 128 0 72).map (·.map Char.ofNat)

end ChainAgent.Url.Punycode
