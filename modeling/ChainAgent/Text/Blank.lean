/-! Whitespace, trimming and words.

Whitespace is the Unicode property White_Space: 25 code points, the same set for trimming, for
splitting into words and for testing whether a text is blank. -/
namespace ChainAgent.Text

/-- The property White_Space. -/
def isBlank (c : Char) : Bool :=
  let n := c.toNat
  (9 ≤ n && n ≤ 13) || n == 0x20 || n == 0x85 || n == 0xA0 || n == 0x1680 ||
    (0x2000 ≤ n && n ≤ 0x200A) || n == 0x2028 || n == 0x2029 || n == 0x202F || n == 0x205F ||
    n == 0x3000

def trimStart (cs : List Char) : List Char := cs.dropWhile isBlank

def trimEnd (cs : List Char) : List Char := (cs.reverse.dropWhile isBlank).reverse

/-- The text without leading and trailing whitespace. -/
def trimChars (cs : List Char) : List Char := trimEnd (trimStart cs)

/-- The text without leading and trailing whitespace. -/
def trim (s : String) : String := String.ofList (trimChars s.toList)

/-- Whether a text is blank: empty, or nothing but whitespace. -/
def saysNothing (s : String) : Bool := s.toList.all isBlank

/-- The words of a text, as maximal runs without whitespace: `current` is the run being read, last
character first. -/
def wordsFrom (current : List Char) : List Char → List (List Char)
  | [] => if current.isEmpty then [] else [current.reverse]
  | c :: rest =>
    if isBlank c then
      if current.isEmpty then wordsFrom [] rest else current.reverse :: wordsFrom [] rest
    else wordsFrom (c :: current) rest

/-- The words of a text: its maximal runs without whitespace, in order. -/
def words (cs : List Char) : List (List Char) := wordsFrom [] cs

/-- Whether `part` is a substring of the text. -/
def occurs (part : List Char) : List Char → Bool
  | [] => part.isEmpty
  | c :: rest => part.isPrefixOf (c :: rest) || occurs part rest

end ChainAgent.Text
