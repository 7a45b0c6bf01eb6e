import ChainAgent.Decimal.Shortest

/-! Formats of floating-point numbers.

A `Layout` says where positional notation ends, whether an integral number has `.0` and how the
special values are spelt; `Layout.render` formats the shortest digits of a number with it. -/
namespace ChainAgent.Decimal

/-- A format of numbers. -/
structure Layout where
  /-- Exponents of the leading digit in positional notation: from the first, below the second;
  `none` for all. -/
  positional : Option (Int × Int)
  /-- Whether an integral number is written with `.0`. -/
  pointZero : Bool
  notANumber : String
  infinity : String

/-- The digits of a natural number in base ten. -/
def natDigits (n : Nat) : List Char := Nat.toDigits 10 n

/-- Positional notation. -/
def Layout.plain (l : Layout) (digits : List Char) (exponent : Int) : List Char :=
  let point : Int := digits.length + exponent
  if 0 ≤ exponent then
    digits ++ List.replicate exponent.toNat '0' ++ (if l.pointZero then ['.', '0'] else [])
  else if 0 < point then
    digits.take point.toNat ++ '.' :: digits.drop point.toNat
  else '0' :: '.' :: List.replicate (-point).toNat '0' ++ digits

/-- Scientific notation with a signed exponent of at least two digits. -/
def scientific (digits : List Char) (leading : Int) : List Char :=
  let rest := digits.drop 1
  let exponent := natDigits leading.natAbs
  digits.take 1 ++ (if rest.isEmpty then [] else '.' :: rest) ++
    ['e', if leading < 0 then '-' else '+'] ++
    (if exponent.length < 2 then '0' :: exponent else exponent)

/-- The format of a finite magnitude. -/
def Layout.magnitude (l : Layout) (bits : UInt64) : List Char :=
  let x := Binary.ofBits bits
  if x.mantissa == 0 then l.plain ['0'] 0
  else
    let d := x.shortest
    let digits := natDigits d.digits
    let leading : Int := digits.length + d.exponent - 1
    match l.positional with
    | none => l.plain digits d.exponent
    | some (first, below) =>
      if first ≤ leading && leading < below then l.plain digits d.exponent
      else scientific digits leading

/-- A number in this format. -/
def Layout.render (l : Layout) (x : Float) : String :=
  if x.isNaN then l.notANumber
  else
    let sign := if x.toBits >>> 63 == 1 then "-" else ""
    sign ++ (if x.isInf then l.infinity else String.ofList (l.magnitude x.toBits))

/-- The format in messages: never an exponent, no point after an integral number. -/
def bare : Layout := ⟨none, false, "NaN", "inf"⟩

/-- The format in JSON: a point or an exponent always shows that the number is no integer. -/
def pointed : Layout := ⟨some (-5, 16), true, "null", "null"⟩

/-- The format in a configuration file: always positional and always with a point. -/
def positionalPointed : Layout := ⟨none, true, "nan", "inf"⟩

/-- The floating-point number nearest to digits with a decimal exponent. -/
def ofScaled (negative : Bool) (digits : Nat) (exponent : Int) : Float :=
  let x := Float.ofScientific digits (exponent < 0) exponent.natAbs
  if negative then -x else x

end ChainAgent.Decimal
