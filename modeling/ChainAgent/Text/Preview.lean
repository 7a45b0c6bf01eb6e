import ChainAgent.Text.Blank

/-! Truncated views of a text.

`truncate` cuts a text at a number of characters and marks the cut; `preview` first collapses
whitespace to single spaces, so that the view is always one line. -/
namespace ChainAgent.Text

/-- The ellipsis at the end of a truncated text. -/
def ellipsis : List Char := ['.', '.', '.']

/-- A text of at most `limit` characters stays as it is; a longer one keeps its first `limit`
characters, without trailing whitespace, and gets an ellipsis. -/
def truncateChars (cs : List Char) (limit : Nat) : List Char :=
  if cs.length ≤ limit then cs else trimEnd (cs.take limit) ++ ellipsis

def truncate (s : String) (limit : Nat) : String := String.ofList (truncateChars s.toList limit)

/-- The words of a text, one space between two of them. -/
def foldBlanks (cs : List Char) : List Char := [' '].intercalate (words cs)

/-- At most `limit` characters of the text on one line, with whitespace collapsed. -/
def preview (s : String) (limit : Nat) : String :=
  String.ofList (truncateChars (foldBlanks s.toList) limit)

end ChainAgent.Text
