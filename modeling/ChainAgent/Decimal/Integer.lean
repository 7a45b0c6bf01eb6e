/-! Parsing of decimal integers: digits with an optional sign, and nothing else. -/
namespace ChainAgent.Decimal

/-- Why a text is no integer of a range. -/
inductive IntegerFault where
  | empty
  | invalidDigit
  | tooLarge
  | tooSmall
deriving DecidableEq

def IntegerFault.message : IntegerFault → String
  | .empty => "cannot parse integer from empty string"
  | .invalidDigit => "invalid digit found in string"
  | .tooLarge => "number too large to fit in target type"
  | .tooSmall => "number too small to fit in target type"

/-- The value of digits after digits already read. Parsing stops at the first character that is no
digit and at the first digit with which the value overflows its bound. -/
def digitsFrom (bound : Nat) (late : IntegerFault) (n : Nat) : List Char → Except IntegerFault Nat
  | [] => .ok n
  | c :: rest =>
    if !c.isDigit then .error .invalidDigit
    else
      let n := n * 10 + (c.toNat - '0'.toNat)
      if n < bound then digitsFrom bound late n rest else .error late

/-- The value of one or more digits. -/
def digits (bound : Nat) (late : IntegerFault) : List Char → Except IntegerFault Nat
  | [] => .error .invalidDigit
  | ds => digitsFrom bound late 0 ds

/-- A natural number below a bound, with an optional plus sign. -/
def natural (bound : Nat) (s : String) : Except IntegerFault Nat :=
  match s.toList with
  | [] => .error .empty
  | '+' :: ds => digits bound .tooLarge ds
  | ds => digits bound .tooLarge ds

def natural? (bound : Nat) (s : String) : Option Nat := (natural bound s).toOption

/-- `2 ^ 63`: one more than the greatest 64-bit integer. -/
def integerBound : Nat := 9223372036854775808

/-- A 64-bit integer with an optional sign. -/
def integer (s : String) : Except IntegerFault Int64 :=
  match s.toList with
  | [] => .error .empty
  | '+' :: ds => (digits integerBound .tooLarge ds).map fun n => .ofNat n
  | '-' :: ds => (digits (integerBound + 1) .tooSmall ds).map fun n => .ofInt (-n)
  | ds => (digits integerBound .tooLarge ds).map fun n => .ofNat n

def integer? (s : String) : Option Int64 := (integer s).toOption

end ChainAgent.Decimal
