/-! Media types: `type/subtype+suffix`, with parameters after semicolons.

They are case-insensitive. A parameter has a name and a value; a quoted value may have any
characters but control characters. -/
namespace ChainAgent.Http

structure MediaType where
  type : List Char
  subtype : List Char
  suffix : Option (List Char)
deriving DecidableEq

namespace MediaType

/-- The characters of names and of unquoted values. -/
def isTokenChar (c : Char) : Bool :=
  c.isAlphanum || "!#$%&'*+-.^_`|~".toList.contains c

/-- The characters of quoted values. -/
def isQuotable (c : Char) : Bool := 32 ≤ c.toNat && c.toNat != 127

/-- The text after a quoted value and whitespace: nothing, or the next parameter. -/
def afterQuoted (cs : List Char) : Option (List Char) :=
  match cs.dropWhile (· == ' ') with
  | [] => some []
  | ';' :: rest => some rest
  | _ => none

/-- The text after the value of a parameter. A quoted value has at least one character, whatever it
is. -/
def afterValue (cs : List Char) : Option (List Char) :=
  match cs with
  | '"' :: first :: rest =>
    if !isQuotable first then none
    else
      match rest.dropWhile fun c => c != '"' && isQuotable c with
      | '"' :: behind => afterQuoted behind
      | _ => none
  | _ =>
    let value := cs.takeWhile isTokenChar
    match cs.drop value.length with
    | [] => some []
    | ';' :: rest => if value.isEmpty then none else some rest
    | _ => none

/-- Whether a text is a list of parameters; `fuel` bounds them. -/
def areParameters : Nat → List Char → Bool
  | 0, _ => false
  | fuel + 1, cs =>
    match cs.dropWhile (· == ' ') with
    | [] => true
    | cs =>
      let name := cs.takeWhile isTokenChar
      match cs.drop name.length with
      | '=' :: rest =>
        !name.isEmpty && match afterValue rest with
          | some rest => areParameters fuel rest
          | none => false
      | _ => false

/-- A subtype and its suffix after the last plus sign, unless it begins with that. -/
def splitSuffix (cs : List Char) : List Char × Option (List Char) :=
  match cs with
  | [] => ([], none)
  | first :: rest =>
    let suffix := (rest.reverse.takeWhile (· != '+')).reverse
    if suffix.length == rest.length then (cs, none)
    else (first :: rest.take (rest.length - suffix.length - 1), some suffix)

/-- Parses a media type. -/
def parse? (s : String) : Option MediaType :=
  let cs := s.toList.map Char.toLower
  let type := cs.takeWhile isTokenChar
  match cs.drop type.length with
  | '/' :: rest =>
    let name := rest.takeWhile isTokenChar
    let (subtype, suffix) := splitSuffix name
    let made : MediaType := ⟨type, subtype, suffix⟩
    if type.isEmpty then none
    else
      match rest.drop name.length with
      | [] => some made
      | ';' :: parameters =>
        if !name.isEmpty && areParameters (parameters.length + 1) parameters then some made else none
      | _ => none
  | _ => none

/-- Whether content of the type is JSON. -/
def isJson (t : MediaType) : Bool :=
  t.type == "application".toList &&
    (t.subtype == "json".toList || t.suffix == some "json".toList)

end MediaType

end ChainAgent.Http
