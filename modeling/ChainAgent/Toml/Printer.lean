import ChainAgent.Toml.Text

/-! Printing of TOML documents.

A table prints its plain members first, one a line, and then its subtables, each under a header of
its own after a blank line. -/
namespace ChainAgent.Toml

/-- A value on one line; none for a value that has no such form. -/
def plainText : Value → Option String
  | .text s => some (quote s)
  | .integer n => some (toString n)
  | .real x => some (Decimal.positionalPointed.render x)
  | .bool b => some (toString b)
  | .array [] => some "[]"
  | .tables [] => some "[]"
  | _ => none

/-- Whether a value is printed under a header. -/
def isSection : Value → Bool
  | .table _ _ => true
  | .tables (_ :: _) => true
  | _ => false

/-- The plain members of a table. -/
def plainLines : Members → Option (List String)
  | [] => some []
  | (key, v) :: rest => do
    if isSection v then plainLines rest
    else return (key ++ " = " ++ (← plainText v) ++ "\n") :: (← plainLines rest)

mutual

/-- The blocks of a table's subtables, each a header with the plain members under it. -/
def sections (path : List String) : Members → Option (List String)
  | [] => some []
  | (key, v) :: rest => do
    let name := path ++ [key]
    let here ← match v with
      | .table _ ms => block "[" "]" name ms
      | .tables items => blocks name items
      | _ => some []
    return here ++ (← sections path rest)

/-- The blocks of one table. -/
def block (opening closing : String) (path : List String) (ms : Members) : Option (List String) := do
  let header := opening ++ ".".intercalate path ++ closing ++ "\n"
  return (header ++ String.join (← plainLines ms)) :: (← sections path ms)

/-- The blocks of the tables under a repeated header. -/
def blocks (path : List String) : List Members → Option (List String)
  | [] => some []
  | ms :: rest => do
    return (← block "[[" "]]" path ms) ++ (← blocks path rest)

end

/-- The document of a table; none if one of its values cannot be printed. -/
def pretty (ms : Members) : Option String := do
  let top ← plainLines ms
  let first := if top.isEmpty then [] else [String.join top]
  return "\n".intercalate (first ++ (← sections [] ms))

end ChainAgent.Toml
