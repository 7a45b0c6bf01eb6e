/-! Splitting of texts.

A separator ends one piece and begins the next, so a text has one piece more than it has separators,
and a text that ends with one has an empty last piece. -/
namespace ChainAgent.Text

/-- The pieces of a text between the separators in it. -/
def pieces (separator : Char) (s : String) : List String :=
  (s.toList.splitOn separator).map String.ofList

/-- The lines of a text, the one behind the last line feed included. -/
def lines (s : String) : List String := pieces '\n' s

end ChainAgent.Text
