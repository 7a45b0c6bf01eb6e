import ChainAgent.Decimal.Notation

/-! Durations and their text in messages.

A span counts nanoseconds. Its text uses the largest of the units `s`, `ms`, `µs` and `ns` of which
it has at least one, with as many decimal places as needed. -/
namespace ChainAgent.Time

/-- A duration in nanoseconds. -/
structure Span where
  nanos : Nat
deriving Repr, DecidableEq, Inhabited

namespace Span

def ofSecs (s : Nat) : Span := ⟨s * 1000000000⟩

def ofMillis (ms : Nat) : Span := ⟨ms * 1000000⟩

/-- Whole seconds. -/
def secs (d : Span) : Nat := d.nanos / 1000000000

/-- Whole milliseconds. -/
def millis (d : Span) : Nat := d.nanos / 1000000

def add (a b : Span) : Span := ⟨a.nanos + b.nanos⟩

instance : Add Span := ⟨add⟩

/-- The first digits of a fraction of a unit, without trailing zeros. -/
def places (width fraction : Nat) : List Char :=
  let ds := Decimal.natDigits fraction
  let padded := List.replicate (width - ds.length) '0' ++ ds
  (padded.reverse.dropWhile (· == '0')).reverse

/-- A count of units of `10 ^ width` nanoseconds each. -/
def inUnit (nanos width : Nat) (unit : String) : String :=
  let fraction := places width (nanos % Nat.pow 10 width)
  let point := if fraction.isEmpty then [] else '.' :: fraction
  String.ofList (Decimal.natDigits (nanos / Nat.pow 10 width) ++ point) ++ unit

/-- The span in its largest unit. -/
def text (d : Span) : String :=
  if 1000000000 ≤ d.nanos then inUnit d.nanos 9 "s"
  else if 1000000 ≤ d.nanos then inUnit d.nanos 6 "ms"
  else if 1000 ≤ d.nanos then inUnit d.nanos 3 "µs"
  else inUnit d.nanos 0 "ns"

end Span

end ChainAgent.Time
