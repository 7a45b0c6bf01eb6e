/-! The shortest decimal of a floating-point number.

A finite number stands for the interval of reals that round to it. `shortest` finds the decimal with
the fewest digits inside that interval, and of two such the one nearest to the number itself, by
exact arithmetic on naturals: for one digit, two digits and so on it tries the number's two
neighbours on that decimal grid. -/
namespace ChainAgent.Decimal

/-- A finite non-negative number `mantissa * 2 ^ exponent`. -/
structure Binary where
  mantissa : Nat
  exponent : Int
  /-- The next number below is only half as far away as the next one above. -/
  narrowBelow : Bool

/-- The magnitude of a finite number with these bits. -/
def Binary.ofBits (bits : UInt64) : Binary :=
  let field := ((bits >>> 52) &&& 0x7FF).toNat
  let fraction := (bits &&& 0xFFFFFFFFFFFFF).toNat
  if field == 0 then ⟨fraction, -1074, false⟩
  else ⟨Nat.pow 2 52 + fraction, (field : Int) - 1075, fraction == 0 && field > 1⟩

/-- The decimal `digits * 10 ^ exponent`. -/
structure Scaled where
  digits : Nat
  exponent : Int
deriving Repr, DecidableEq

/-- Whether `a * 10 ^ e ≤ b * 2 ^ q`. -/
def scaledLe (a : Nat) (e : Int) (b : Nat) (q : Int) : Bool :=
  a * Nat.pow 10 e.toNat * Nat.pow 2 (-q).toNat ≤ b * Nat.pow 2 q.toNat * Nat.pow 10 (-e).toNat

/-- Whether `b * 2 ^ q ≤ a * 10 ^ e`. -/
def scaledGe (a : Nat) (e : Int) (b : Nat) (q : Int) : Bool :=
  b * Nat.pow 2 q.toNat * Nat.pow 10 (-e).toNat ≤ a * Nat.pow 10 e.toNat * Nat.pow 2 (-q).toNat

/-- Whether the decimal rounds to the number: it lies between the two midpoints, which are included
for an even mantissa. -/
def Binary.readsBack (x : Binary) (d : Scaled) : Bool :=
  let below := 4 * x.mantissa - (if x.narrowBelow then 1 else 2)
  let above := 4 * x.mantissa + 2
  let q := x.exponent - 2
  if x.mantissa % 2 == 0 then
    scaledGe d.digits d.exponent below q && scaledLe d.digits d.exponent above q
  else
    !scaledLe d.digits d.exponent below q && !scaledGe d.digits d.exponent above q

/-- The least `k` with the number below `10 ^ k`. -/
def Binary.scale (x : Binary) : Int :=
  let bits : Int := x.mantissa.log2 + x.exponent
  let guess : Int := bits * 30103 / 100000
  let fits (k : Int) : Bool := !scaledLe 1 k x.mantissa x.exponent
  ([guess - 1, guess, guess + 1].find? fits).getD (guess + 2)

/-- The number's lower neighbour on the grid of multiples of `10 ^ e`, and twice the
remainder against the grid's step. -/
def Binary.onGrid (x : Binary) (e : Int) : Nat × Ordering :=
  let num := x.mantissa * Nat.pow 2 x.exponent.toNat * Nat.pow 10 (-e).toNat
  let den := Nat.pow 2 (-x.exponent).toNat * Nat.pow 10 e.toNat
  (num / den, compare (2 * (num % den)) den)

/-- The neighbour on a grid that round-trips, if one does: of two the nearer, and the upper one in a
tie. -/
def Binary.hit (x : Binary) (e : Int) : Option Scaled :=
  let (low, side) := x.onGrid e
  let lower : Scaled := ⟨low, e⟩
  let upper : Scaled := ⟨low + 1, e⟩
  match x.readsBack lower && low != 0, x.readsBack upper with
  | true, true => some (if side == .lt then lower else upper)
  | true, false => some lower
  | false, true => some upper
  | false, false => none

/-- The decimal without trailing zeros; `fuel` bounds their number. -/
def Scaled.strip : Nat → Scaled → Scaled
  | 0, d => d
  | fuel + 1, d =>
    if d.digits != 0 && d.digits % 10 == 0 then strip fuel ⟨d.digits / 10, d.exponent + 1⟩ else d

/-- The exact decimal value. -/
def Binary.exact (x : Binary) : Scaled :=
  if 0 ≤ x.exponent then ⟨x.mantissa * Nat.pow 2 x.exponent.toNat, 0⟩
  else ⟨x.mantissa * Nat.pow 5 (-x.exponent).toNat, x.exponent⟩

/-- The decimal with the fewest digits that round-trips to a nonzero number. -/
def Binary.shortest (x : Binary) : Scaled :=
  let k := x.scale
  let found := (List.range 17).findSome? fun n => x.hit (k - (n + 1 : Nat))
  (found.getD x.exact).strip 400

end ChainAgent.Decimal
