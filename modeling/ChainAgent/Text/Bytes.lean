/-! UTF-8.

`decode` is strict; `decodeLossy` reads any bytes and puts one replacement character for each
maximal prefix of an ill-formed sequence. -/
namespace ChainAgent.Text

/-- The text of well-formed UTF-8. -/
def decode (bytes : ByteArray) : Option String := String.fromUTF8? bytes

/-- The replacement character, for ill-formed bytes. -/
def replacement : Char := Char.ofNat 0xFFFD

/-- How many continuation bytes a lead byte has, and the range of the first of them; none for an
invalid lead byte. -/
def following (lead : UInt8) : Option (Nat × UInt8 × UInt8) :=
  if lead < 0xC2 then none
  else if lead < 0xE0 then some (1, 0x80, 0xBF)
  else if lead == 0xE0 then some (2, 0xA0, 0xBF)
  else if lead == 0xED then some (2, 0x80, 0x9F)
  else if lead < 0xF0 then some (2, 0x80, 0xBF)
  else if lead == 0xF0 then some (3, 0x90, 0xBF)
  else if lead < 0xF4 then some (3, 0x80, 0xBF)
  else if lead == 0xF4 then some (3, 0x80, 0x8F)
  else none

/-- The code point of a lead byte and its continuation bytes. -/
def codePoint (lead : UInt8) (rest : List UInt8) : Nat :=
  let mask : UInt8 := match rest.length with
    | 1 => 0x1F
    | 2 => 0x0F
    | _ => 0x07
  rest.foldl (fun n b => n * 64 + (b &&& 0x3F).toNat) (lead &&& mask).toNat

/-- The continuation bytes of a character, at most `count`. -/
def continuation (count : Nat) (low high : UInt8) : List UInt8 → List UInt8
  | [] => []
  | b :: rest =>
    match count with
    | 0 => []
    | count + 1 =>
      if low ≤ b && b ≤ high then b :: continuation count 0x80 0xBF rest else []

/-- Decodes one character or one ill-formed prefix a step; `fuel` bounds the steps. -/
def decodeLossyFrom (made : List Char) : Nat → List UInt8 → List Char
  | 0, _ => made.reverse
  | _, [] => made.reverse
  | fuel + 1, b :: rest =>
    if b < 0x80 then decodeLossyFrom (Char.ofNat b.toNat :: made) fuel rest
    else
      match following b with
      | none => decodeLossyFrom (replacement :: made) fuel rest
      | some (count, low, high) =>
        let more := continuation count low high rest
        let c := if more.length == count then Char.ofNat (codePoint b more) else replacement
        decodeLossyFrom (c :: made) fuel (rest.drop more.length)

/-- Lossy decoding of any bytes. -/
def decodeLossy (bytes : ByteArray) : String :=
  let bs := bytes.toList
  String.ofList (decodeLossyFrom [] bs.length bs)

end ChainAgent.Text
