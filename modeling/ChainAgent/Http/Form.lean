import ChainAgent.Json.Reader
import ChainAgent.Text.Bytes

/-! URL-encoded forms, as in a query string.

A plus sign stands for a space, and a percent sign with two hex digits for a byte. -/
namespace ChainAgent.Http.Form

def byteOf (c : Char) : List UInt8 := (String.singleton c).toUTF8.toList

/-- The bytes of percent-encoded characters. -/
def bytes : List Char → List UInt8
  | [] => []
  | '+' :: rest => 32 :: bytes rest
  | '%' :: a :: b :: rest =>
    match Json.hexValue a, Json.hexValue b with
    | some x, some y => UInt8.ofNat (x * 16 + y) :: bytes rest
    | _, _ => 37 :: bytes (a :: b :: rest)
  | c :: rest => byteOf c ++ bytes rest
  termination_by cs => cs.length

/-- A decoded name or value. -/
def decoded (cs : List Char) : String := Text.decodeLossy ⟨(bytes cs).toArray⟩

/-- One name with its value; a missing value is empty. -/
def pair (s : String) : String × String :=
  let cs := s.toList
  let name := cs.takeWhile (· != '=')
  (decoded name, decoded (cs.drop (name.length + 1)))

/-- The names and values of a form in their order. -/
def pairs (s : String) : List (String × String) :=
  ((s.splitOn "&").filter (!·.isEmpty)).map pair

end ChainAgent.Http.Form
