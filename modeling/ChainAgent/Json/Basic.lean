import ChainAgent.Decimal.Notation

/-! JSON values.

Numbers keep the class that their text gives them: a natural number or a negative integer of 64
bits, and a floating-point number for everything else. Objects keep the order of their members. -/
namespace ChainAgent.Json

/-- A number by its class. -/
inductive Numeral where
  /-- An integer from zero up to `2 ^ 64 - 1`. -/
  | natural (n : Nat)
  /-- The integer `-n`, from `-1` down to `-2 ^ 63`. -/
  | negative (n : Nat)
  | real (x : Float)

inductive Value where
  | null
  | bool (b : Bool)
  | number (n : Numeral)
  | text (s : String)
  | array (items : List Value)
  | object (members : List (String × Value))

instance : Inhabited Value := ⟨.null⟩

/-- An integer as a number. -/
def Numeral.ofInt : Int → Numeral
  | .ofNat n => .natural n
  | .negSucc n => .negative (n + 1)

namespace Value

def ofNat (n : Nat) : Value := .number (.natural n)

def ofInt (i : Int) : Value := .number (.ofInt i)

def ofFloat (x : Float) : Value := .number (.real x)

/-- The members of an object. -/
def members? : Value → Option (List (String × Value))
  | .object ms => some ms
  | _ => none

end Value

/-- The member of this name, of several the last. -/
def lookup (name : String) (members : List (String × Value)) : Option Value :=
  members.foldl (fun found m => if m.1 == name then some m.2 else found) none

/-- Members sorted by name: a later member replaces an earlier one of the same name. -/
def insertMember (name : String) (v : Value) : List (String × Value) → List (String × Value)
  | [] => [(name, v)]
  | (n, w) :: rest =>
    if name < n then (name, v) :: (n, w) :: rest
    else if name == n then (name, v) :: rest
    else (n, w) :: insertMember name v rest

/-- Members sorted by name, the last of each name. -/
def sortMembers (members : List (String × Value)) : List (String × Value) :=
  members.foldl (fun sorted m => insertMember m.1 m.2 sorted) []

end ChainAgent.Json
