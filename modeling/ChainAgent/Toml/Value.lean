import ChainAgent.Decimal.Notation

/-! TOML values.

A table remembers how it was defined, because that decides what a later line of the same document
may still add to it. -/
namespace ChainAgent.Toml

inductive Form where
  /-- Defined by a header of its own. -/
  | headed
  /-- Defined implicitly by the header of a subtable. -/
  | implied
  /-- Defined by a dotted key. -/
  | dotted
  /-- An inline table, which cannot be extended. -/
  | closed
deriving DecidableEq

inductive Value where
  | text (s : String)
  | integer (n : Int)
  | real (x : Float)
  | bool (b : Bool)
  /-- A date, a time or both. -/
  | moment
  | array (items : List Value)
  /-- An array of tables, under a repeated header. -/
  | tables (items : List (List (String × Value)))
  | table (form : Form) (members : List (String × Value))

instance : Inhabited Value := ⟨.moment⟩

abbrev Members := List (String × Value)

/-- The member with a name. -/
def find? (key : String) (ms : Members) : Option Value := (ms.find? (·.1 == key)).map (·.2)

/-- Puts a value in the place of the member of this name. -/
def replace (key : String) (v : Value) (ms : Members) : Members :=
  ms.map fun m => if m.1 == key then (key, v) else m

/-- Adds a member whose name is new. -/
def add? (key : String) (v : Value) (ms : Members) : Option Members :=
  if ms.any (·.1 == key) then none else some (ms ++ [(key, v)])

end ChainAgent.Toml
