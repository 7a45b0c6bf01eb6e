import ChainAgent.Json.Reader
import ChainAgent.Text.Quoted

/-! Decoding JSON into records.

A decoder walks a tree in the order of its text and stops at the first error: either the text is
malformed there, or its content is not what is expected, which a `Problem` describes. A record is
read from an object, where unknown members are ignored and a duplicate field is an error, or from an
array of its fields in order. -/
namespace ChainAgent.Json

/-- What is wrong with the content. -/
inductive Problem where
  | wrongType (found expected : String)
  | outOfRange (n : Int) (expected : String)
  | missingField (name : String)
  | duplicateField (name : String)
  | wrongLength (length : Nat) (expected : String)

inductive Fault where
  /-- The text is malformed. -/
  | malformed
  /-- The content is not what is expected, in the field of this path. -/
  | content (path : List String) (problem : Problem)

def Problem.message : Problem → String
  | .wrongType found expected => "invalid type: " ++ found ++ ", expected " ++ expected
  | .outOfRange n expected =>
    "invalid value: integer `" ++ toString n ++ "`, expected " ++ expected
  | .missingField name => "missing field `" ++ name ++ "`"
  | .duplicateField name => "duplicate field `" ++ name ++ "`"
  | .wrongLength n expected => "invalid length " ++ toString n ++ ", expected " ++ expected

/-- The path of a field, its names separated by dots; an index is in brackets. -/
def pathText : List String → String
  | [] => ""
  | s :: rest =>
    rest.foldl (fun t s => if s.startsWith "[" then t ++ s else t ++ "." ++ s) s

/-- The problem, after the path to the field that has it. -/
def Fault.message : Fault → String
  | .malformed => "malformed JSON"
  | .content [] p => p.message
  | .content path p => pathText path ++ ": " ++ p.message

/-- The problem without its path. -/
def Fault.plainMessage : Fault → String
  | .malformed => "malformed JSON"
  | .content _ p => p.message

def Fault.under (name : String) : Fault → Fault
  | .malformed => .malformed
  | .content path p => .content (name :: path) p

/-- A decoder of values of a type. -/
abbrev Decoder (α : Type) := Node → Except Fault α

def Numeral.describe : Numeral → String
  | .natural n => "integer `" ++ toString n ++ "`"
  | .negative n => "integer `-" ++ toString n ++ "`"
  | .real x => "floating point `" ++ Decimal.pointed.render x ++ "`"

/-- The error for a node of another type. -/
def unexpected (expected : String) : Node → Fault
  | .null => .content [] (.wrongType "null" expected)
  | .bool b => .content [] (.wrongType ("boolean `" ++ toString b ++ "`") expected)
  | .number (some n) => .content [] (.wrongType n.describe expected)
  | .number none => .malformed
  | .text (some s) => .content [] (.wrongType ("string " ++ Text.quoted s) expected)
  | .text none => .malformed
  | .array _ => .content [] (.wrongType "sequence" expected)
  | .object _ => .content [] (.wrongType "map" expected)
  | .broken => .malformed

def string : Decoder String
  | .text (some s) => .ok s
  | n => .error (unexpected "a string" n)

/-- A 64-bit natural number. -/
def unsigned : Decoder Nat
  | .number (some (.natural n)) => .ok n
  | .number (some (.negative n)) => .error (.content [] (.outOfRange (-n) "u64"))
  | n => .error (unexpected "u64" n)

/-- A 64-bit integer. -/
def integer : Decoder Int
  | .number (some (.natural n)) =>
    if n < Decimal.integerBound then .ok n else .error (.content [] (.outOfRange n "i64"))
  | .number (some (.negative n)) => .ok (-n)
  | n => .error (unexpected "i64" n)

/-- Null, or a value. -/
def nullable {α : Type} (d : Decoder α) : Decoder (Option α)
  | .null => .ok none
  | n => (d n).map some

def indexed {α : Type} (d : Decoder α) : Nat → List Node → Except Fault (List α)
  | _, [] => .ok []
  | i, n :: rest =>
    match d n with
    | .error f => .error (f.under ("[" ++ toString i ++ "]"))
    | .ok a =>
      match indexed d (i + 1) rest with
      | .error f => .error f
      | .ok as => .ok (a :: as)

def list {α : Type} (d : Decoder α) : Decoder (List α)
  | .array items => indexed d 0 items
  | n => .error (unexpected "a sequence" n)

/-! ### Records -/

/-- A field of a record. -/
structure Field where
  name : String
  /-- Whether the field may be missing from an array of fields: it has a default. -/
  defaulted : Bool
  /-- Whether the field may be missing from an object: it has a default or is nullable. -/
  optional : Bool
  check : Node → Except Fault Unit

/-- A required field. -/
def required {α : Type} (name : String) (d : Decoder α) : Field :=
  ⟨name, false, false, fun n => (d n).map fun _ => ()⟩

/-- A field with a default. -/
def defaulted {α : Type} (name : String) (d : Decoder α) : Field :=
  ⟨name, true, true, fun n => (d n).map fun _ => ()⟩

/-- A field that may be missing or null. -/
def optional {α : Type} (name : String) (d : Decoder α) : Field :=
  ⟨name, false, true, fun n => (nullable d n).map fun _ => ()⟩

/-- Where a tree came from: a text, or a parsed value. They differ in the error for an array with
too many fields: a syntax error in a text, a wrong length in a value. -/
inductive Origin where
  | text
  | value
deriving DecidableEq

/-- A record type: its name and its fields in order. -/
structure Shape where
  name : String
  fields : List Field

/-- The expected length of an array of a shape. -/
def Shape.elements (s : Shape) : String :=
  "struct " ++ s.name ++ " with " ++ toString s.fields.length ++
    (if s.fields.length == 1 then " element" else " elements")

/-- Whether the node has a syntax error. -/
def Node.isBroken : Node → Bool
  | .broken => true
  | .array items => itemsBroken items
  | .object members => membersBroken members
  | _ => false
where
  itemsBroken : List Node → Bool
    | [] => false
    | n :: rest => n.isBroken || itemsBroken rest
  membersBroken : List (Option String × Node) → Bool
    | [] => false
    | (_, n) :: rest => n.isBroken || membersBroken rest

/-- The fields of the members of an object, in the order of the members. -/
def memberFields (s : Shape) (found : List (String × Node)) :
    List (Option String × Node) → Except Fault (List (String × Node))
  | [] => .ok found
  | (none, _) :: _ => .error .malformed
  | (some key, n) :: rest =>
    match s.fields.find? (·.name == key) with
    | none => if n.isBroken then .error .malformed else memberFields s found rest
    | some f =>
      if found.any (·.1 == key) then .error (.content [] (.duplicateField key))
      else
        match f.check n with
        | .error e => .error (e.under key)
        | .ok _ => memberFields s (found ++ [(key, n)]) rest

/-- The first required field that is missing from an object. -/
def Shape.firstMissing (s : Shape) (found : List (String × Node)) : Option String :=
  (s.fields.find? fun f => !f.optional && !found.any (·.1 == f.name)).map (·.name)

/-- The fields of the items of an array; `index` counts them. -/
def itemFields (s : Shape) (origin : Origin) (total : Nat) :
    Nat → List Field → List Node → Except Fault (List (String × Node))
  | _, [], [] => .ok []
  | _, [], _ :: _ =>
    match origin with
    | .text => .error .malformed
    | .value => .error (.content [] (.wrongLength total "fewer elements in array"))
  | index, f :: fs, [] =>
    if f.defaulted then itemFields s origin total (index + 1) fs []
    else .error (.content [] (.wrongLength index s.elements))
  | index, f :: fs, n :: rest =>
    match f.check n with
    | .error e => .error (e.under ("[" ++ toString index ++ "]"))
    | .ok _ => (itemFields s origin total (index + 1) fs rest).map ((f.name, n) :: ·)

/-- The fields of a record by name; a missing one has its default. -/
def Shape.scan (s : Shape) (origin : Origin) : Node → Except Fault (List (String × Node))
  | .object members =>
    match memberFields s [] members with
    | .error e => .error e
    | .ok found =>
      match s.firstMissing found with
      | some name => .error (.content [] (.missingField name))
      | none => .ok found
  | .array items => itemFields s origin items.length 0 s.fields items
  | n => .error (unexpected ("struct " ++ s.name) n)

/-- The field of this name, decoded; the default when it is missing. -/
def fieldOr {α : Type} (found : List (String × Node)) (name : String) (d : Decoder α)
    (default : α) : α :=
  match found.find? (·.1 == name) with
  | some (_, n) => (d n).toOption.getD default
  | none => default

/-- The value of a whole text: its content is decoded as it is read, and then the text must end. -/
def decodeText {α : Type} (d : Decoder α) (s : String) : Except Fault α :=
  let (node, ended) := readDocument s
  match d node with
  | .error f => .error f
  | .ok a => if ended then .ok a else .error .malformed

end ChainAgent.Json
